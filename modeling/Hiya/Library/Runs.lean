import Mathlib.Data.List.Basic
import Mathlib.Data.List.Chain

/-! Runs of a deterministic machine that is fed inputs one by one, as the list of
its steps. Properties of a run speak about a step and the steps before it. -/

namespace Hiya.Library

structure Machine (σ ι ο : Type) where
  step : ι → σ → ο × σ
  /-- Outcomes after which nothing is known any more. -/
  halts : ο → Bool

structure Event (σ ι ο : Type) where
  before : σ
  input : ι
  outcome : ο
  after : σ

namespace Machine
variable {σ ι ο : Type} (machine : Machine σ ι ο)

def event (state : σ) (input : ι) : Event σ ι ο where
  before := state
  input
  outcome := (machine.step input state).1
  after := (machine.step input state).2

def run : σ → List ι → List (Event σ ι ο)
  | _, [] => []
  | state, input :: rest =>
    let event := machine.event state input
    if machine.halts event.outcome then [event] else event :: run event.after rest

theorem run_singleton (state : σ) (input : ι) : machine.run state [input] = [machine.event state input] := by
  simp [run]

/-- Where a run ends, and whether anything is known there. -/
def reached : σ → List ι → σ × Bool
  | state, [] => (state, true)
  | state, input :: rest =>
    let event := machine.event state input
    if machine.halts event.outcome then (event.after, false) else reached event.after rest

theorem reached_singleton (state : σ) (input : ι) :
    machine.reached state [input] = ((machine.event state input).after,
    !machine.halts (machine.event state input).outcome) := by
  rw [reached]
  cases machine.halts (machine.event state input).outcome with
  | true => rfl
  | false => rfl

theorem reached_append (state : σ) (first second : List ι) : machine.reached state (first ++ second) =
    if (machine.reached state first).2 then machine.reached (machine.reached state first).1 second
    else machine.reached state first := by
  induction first generalizing state with
  | nil => rfl
  | cons input rest ih =>
    rw [List.cons_append, reached, reached]
    split
    · rfl
    · exact ih _

/-- A run goes on from where the first part of it ends. -/
theorem run_append (state : σ) (first second : List ι) : machine.run state (first ++ second) =
    machine.run state first ++ if (machine.reached state first).2 then
    machine.run (machine.reached state first).1 second else [] := by
  induction first generalizing state with
  | nil => rfl
  | cons input rest ih =>
    rw [List.cons_append, run, run, reached]
    split
    · rfl
    · rw [ih, List.cons_append]

/-- A step of a run is what the machine makes of its input. -/
theorem event_of_mem {start : σ} {inputs : List ι} {event : Event σ ι ο} (inside : event ∈ machine.run start inputs) :
    event = machine.event event.before event.input := by
  induction inputs generalizing start with
  | nil => exact absurd inside List.not_mem_nil
  | cons input rest ih =>
    unfold run at inside
    dsimp only at inside
    split at inside
    · rw [List.mem_singleton.mp inside]
      rfl
    · rcases List.mem_cons.mp inside with rfl | later
      · rfl
      · exact ih later

end Machine

section
variable {σ ι ο : Type} {machine : Machine σ ι ο}

/-- Every step of a run, after the steps `past` made before the run began. -/
def ThroughoutFrom {ε : Type} (past : List ε) (events : List ε) (holds : List ε → ε → Prop) : Prop :=
  ∀ front event back, events = front ++ event :: back → holds (past ++ front) event

/-- Every step of a run, judged by the steps before it. -/
def Throughout {ε : Type} (events : List ε) (holds : List ε → ε → Prop) : Prop := ThroughoutFrom [] events holds

theorem ThroughoutFrom.cons {ε : Type} {past : List ε} {event : ε} {rest : List ε} {holds : List ε → ε → Prop}
    (first : holds past event) (later : ThroughoutFrom (past ++ [event]) rest holds) :
    ThroughoutFrom past (event :: rest) holds := by
  intro front step back shape
  cases front with
  | nil =>
    obtain ⟨rfl, -⟩ := List.cons.inj shape
    rwa [List.append_nil]
  | cons head tail =>
    obtain ⟨rfl, rest⟩ := List.cons.inj shape
    have reached := later tail step back rest
    rwa [List.append_assoc, List.singleton_append] at reached

theorem ThroughoutFrom.head {ε : Type} {past : List ε} {event : ε} {rest : List ε} {holds : List ε → ε → Prop}
    (all : ThroughoutFrom past (event :: rest) holds) : holds past event := by
  have first := all [] event rest rfl
  rwa [List.append_nil] at first

theorem ThroughoutFrom.tail {ε : Type} {past : List ε} {event : ε} {rest : List ε} {holds : List ε → ε → Prop}
    (all : ThroughoutFrom past (event :: rest) holds) : ThroughoutFrom (past ++ [event]) rest holds := by
  intro front step back shape
  have reached := all (event :: front) step back (by rw [shape, List.cons_append])
  rwa [List.append_assoc, List.singleton_append]

theorem ThroughoutFrom.nil {ε : Type} (past : List ε) (holds : List ε → ε → Prop) : ThroughoutFrom past [] holds := by
  intro front event back shape
  simp at shape

/-- What holds of every step, whatever came before it, holds of the steps of the run. -/
theorem Throughout.of_mem {ε : Type} {events : List ε} {good : ε → Prop} (all : Throughout events fun _ event => good event)
    {event : ε} (inside : event ∈ events) : good event := by
  obtain ⟨front, back, shape⟩ := List.append_of_mem inside
  exact all front event back shape

theorem Throughout.of_forall {ε : Type} {events : List ε} {good : ε → Prop} (all : ∀ event ∈ events, good event) :
    Throughout events fun _ event => good event := by
  intro front event back shape
  refine all event ?_
  rw [shape]
  exact List.mem_append_right _ (List.mem_cons_self ..)

theorem throughout_iff {ε : Type} {events : List ε} {good : ε → Prop} :
    (Throughout events fun _ event => good event) ↔ ∀ event ∈ events, good event :=
  ⟨fun all _ inside => all.of_mem inside, .of_forall⟩

theorem split_at {ε : Type} {events : List ε} {place : Nat} {event : ε} (there : events[place]? = some event) :
    events = events.take place ++ event :: events.drop (place + 1) := by
  obtain ⟨inside, rfl⟩ := List.getElem?_eq_some_iff.mp there
  rw [← List.drop_eq_getElem_cons inside, List.take_append_drop]

/-- The step at a place of the run, judged by those in front of it. -/
theorem Throughout.at {ε : Type} {events : List ε} {holds : List ε → ε → Prop} (all : Throughout events holds) {place : Nat}
    {event : ε} (there : events[place]? = some event) : holds (events.take place) event := all _ _ _ (split_at there)

/-- Some step of the history was a `mark`, and no step after it a `cancel`. -/
def Since {ε : Type} (mark cancel : ε → Prop) (past : List ε) : Prop :=
  ∃ front event back, past = front ++ event :: back ∧ mark event ∧ ∀ later ∈ back, ¬ cancel later

/-- Some step of the history was a `first`, and a later one a `second`. -/
def Followed {ε : Type} (first second : ε → Prop) (past : List ε) : Prop :=
  ∃ front event back, past = front ++ event :: back ∧ (∃ earlier ∈ front, first earlier) ∧ second event

/-- Some step of the history was `marked`, judged by the steps before it. -/
def Once {ε : Type} (marked : List ε → ε → Prop) (past : List ε) : Prop :=
  ∃ front event back, past = front ++ event :: back ∧ marked front event

/-- The last step of a split history is the new one, or it belongs to the old history. -/
theorem split_snoc {ε : Type} {past front back : List ε} {event step : ε}
    (shape : past ++ [event] = front ++ step :: back) :
    (past = front ∧ event = step ∧ back = []) ∨ ∃ rest, past = front ++ step :: rest ∧ back = rest ++ [event] := by
  rcases List.eq_nil_or_concat back with rfl | ⟨rest, last, ends⟩
  · obtain ⟨same, ends⟩ := List.append_inj' shape rfl
    exact .inl ⟨same, List.singleton_inj.mp ends, rfl⟩
  · rw [ends, List.concat_eq_append, ← List.cons_append, ← List.append_assoc] at shape
    obtain ⟨same, final⟩ := List.append_inj' shape rfl
    cases final
    exact .inr ⟨rest, same, by rw [ends, List.concat_eq_append]⟩

theorem since_snoc {ε : Type} {mark cancel : ε → Prop} {past : List ε} {event : ε} :
    Since mark cancel (past ++ [event]) ↔ mark event ∨ (Since mark cancel past ∧ ¬ cancel event) := by
  constructor
  · rintro ⟨front, step, back, shape, marked, kept⟩
    rcases split_snoc shape with ⟨-, rfl, -⟩ | ⟨rest, same, rfl⟩
    · exact .inl marked
    · refine .inr ⟨⟨front, step, rest, same, marked, fun later inside => kept later ?_⟩, kept event ?_⟩
      · exact List.mem_append_left _ inside
      · exact List.mem_append_right _ (List.mem_singleton_self event)
  · rintro (marked | ⟨⟨front, step, back, rfl, marked, kept⟩, stays⟩)
    · exact ⟨past, event, [], rfl, marked, fun later inside => absurd inside List.not_mem_nil⟩
    · refine ⟨front, step, back ++ [event], by simp, marked, fun later inside => ?_⟩
      rcases List.mem_append.mp inside with inside | inside
      · exact kept later inside
      · rwa [List.mem_singleton.mp inside]

theorem followed_snoc {ε : Type} {first second : ε → Prop} {past : List ε} {event : ε} :
    Followed first second (past ++ [event]) ↔
      Followed first second past ∨ ((∃ earlier ∈ past, first earlier) ∧ second event) := by
  constructor
  · rintro ⟨front, step, back, shape, started, ended⟩
    rcases split_snoc shape with ⟨rfl, rfl, -⟩ | ⟨rest, same, rfl⟩
    · exact .inr ⟨started, ended⟩
    · exact .inl ⟨front, step, rest, same, started, ended⟩
  · rintro (⟨front, step, back, rfl, started, ended⟩ | ⟨started, ended⟩)
    · exact ⟨front, step, back ++ [event], by simp, started, ended⟩
    · exact ⟨past, event, [], rfl, started, ended⟩

theorem once_snoc {ε : Type} {marked : List ε → ε → Prop} {past : List ε} {event : ε} :
    Once marked (past ++ [event]) ↔ Once marked past ∨ marked past event := by
  constructor
  · rintro ⟨front, step, back, shape, here⟩
    obtain ⟨rfl, rfl, -⟩ | ⟨rest, same, -⟩ := split_snoc shape
    · exact .inr here
    · exact .inl ⟨front, step, rest, same, here⟩
  · rintro (⟨front, step, back, rfl, here⟩ | here)
    · exact ⟨front, step, back ++ [event], by simp, here⟩
    · exact ⟨past, event, [], rfl, here⟩

theorem Since.mono {ε : Type} {mark cancel fewer : ε → Prop} {past : List ε} (since : Since mark cancel past)
    (less : ∀ event, fewer event → cancel event) : Since mark fewer past := by
  obtain ⟨front, event, back, shape, marked, kept⟩ := since
  exact ⟨front, event, back, shape, marked, fun later inside ends => kept later inside (less later ends)⟩

theorem Since.of_at {ε : Type} {mark cancel : ε → Prop} {past : List ε} {place : Nat} {event : ε}
    (there : past[place]? = some event)
    (marked : mark event) (kept : ∀ later ∈ past.drop (place + 1), ¬ cancel later) : Since mark cancel past :=
  ⟨past.take place, event, past.drop (place + 1), split_at there, marked, kept⟩

theorem Since.mem {ε : Type} {mark cancel : ε → Prop} {past : List ε} (since : Since mark cancel past) :
    ∃ event ∈ past, mark event := by
  obtain ⟨front, event, back, rfl, marked, -⟩ := since
  exact ⟨event, List.mem_append_right _ (List.mem_cons_self ..), marked⟩

/-- An invariant of the history that every permitted step keeps, and that makes
every permitted step good, makes every step of a permitted run good. -/
theorem Machine.run_throughout (invariant : List (Event σ ι ο) → σ → Prop)
    {permitted good : List (Event σ ι ο) → Event σ ι ο → Prop}
    (keeps : ∀ past state input, invariant past state → permitted past (machine.event state input) →
      invariant (past ++ [machine.event state input]) (machine.event state input).after)
    (makes : ∀ past state input, invariant past state → permitted past (machine.event state input) →
      good past (machine.event state input))
    {start : σ} (holds : invariant [] start) {inputs : List ι}
    (allowed : Throughout (machine.run start inputs) permitted) : Throughout (machine.run start inputs) good := by
  have general : ∀ inputs past state, invariant past state →
      ThroughoutFrom past (machine.run state inputs) permitted → ThroughoutFrom past (machine.run state inputs) good := by
    intro inputs
    induction inputs with
    | nil =>
      intro past state _ _
      exact .nil past good
    | cons input rest ih =>
      intro past state holds allowed
      simp only [Machine.run] at allowed ⊢
      split at allowed
      next stops =>
        rw [if_pos stops]
        exact .cons (makes past state input holds allowed.head) (.nil _ good)
      next goes =>
        rw [if_neg goes]
        exact .cons (makes past state input holds allowed.head)
          (ih _ _ (keeps past state input holds allowed.head) allowed.tail)
  exact general inputs [] start holds allowed

/-- An invariant that every step keeps, and that makes every step good. -/
theorem Machine.run_every (invariant : List (Event σ ι ο) → σ → Prop) {good : List (Event σ ι ο) → Event σ ι ο → Prop}
    (keeps : ∀ past state input, invariant past state →
    invariant (past ++ [machine.event state input]) (machine.event state input).after)
    (makes : ∀ past state input, invariant past state → good past (machine.event state input))
    {start : σ} (holds : invariant [] start) (inputs : List ι) : Throughout (machine.run start inputs) good := by
  have unrestricted : Throughout (machine.run start inputs) fun _ _ => True := fun _ _ _ _ => trivial
  exact Machine.run_throughout invariant (fun past state input before _ => keeps past state input before)
    (fun past state input before _ => makes past state input before) holds unrestricted

theorem Machine.run_steps {good : Event σ ι ο → Prop} (makes : ∀ state input, good (machine.event state input))
    (start : σ) (inputs : List ι) :
    Throughout (machine.run start inputs) fun _ event => good event :=
  Machine.run_every (fun _ _ => True) (fun _ _ _ _ => trivial) (fun _ state input _ => makes state input) trivial inputs

/-- Where every step keeps an invariant exactly when it is good, the invariant holds all
along a run exactly when every step of it is good. -/
theorem Machine.run_forall_iff (invariant : σ → Prop) {fits good : Event σ ι ο → Prop}
    (single : ∀ state input, invariant state → fits (machine.event state input) →
      (invariant (machine.event state input).after ↔ good (machine.event state input)))
    {start : σ} (holds : invariant start) {inputs : List ι} (fit : ∀ event ∈ machine.run start inputs, fits event) :
    (∀ event ∈ machine.run start inputs, invariant event.after) ↔ ∀ event ∈ machine.run start inputs, good event := by
  constructor
  · intro always event inside
    have allowed : Throughout (machine.run start inputs) fun _ event => invariant event.after ∧ fits event :=
      .of_forall fun event inside => ⟨always event inside, fit event inside⟩
    have every : Throughout (machine.run start inputs) fun _ event => good event :=
      Machine.run_throughout (fun _ state => invariant state) (fun _ _ _ _ fine => fine.1)
        (fun _ state input before fine => (single state input before fine.2).mp fine.1) holds allowed
    exact every.of_mem inside
  · intro all event inside
    have allowed : Throughout (machine.run start inputs) fun _ event => good event ∧ fits event :=
      .of_forall fun event inside => ⟨all event inside, fit event inside⟩
    have keeps : ∀ (past : List (Event σ ι ο)) state input, invariant state →
        good (machine.event state input) ∧ fits (machine.event state input) → invariant (machine.event state input).after :=
      fun _ state input before fine => (single state input before fine.2).mpr fine.1
    have every : Throughout (machine.run start inputs) fun _ event => invariant event.after :=
      Machine.run_throughout (fun _ state => invariant state) keeps keeps holds allowed
    exact every.of_mem inside

end

section
variable {σ ι ο τ κ π : Type}

theorem Machine.input_mem {machine : Machine σ ι ο} {start : σ} {inputs : List ι} {event : Event σ ι ο}
    (inside : event ∈ machine.run start inputs) :
    event.input ∈ inputs := by
  induction inputs generalizing start with
  | nil => exact absurd inside List.not_mem_nil
  | cons input rest ih =>
    rw [Machine.run] at inside
    split at inside
    · rw [List.mem_singleton.mp inside]
      exact List.mem_cons_self
    · obtain rfl | later := List.mem_cons.mp inside
      · exact List.mem_cons_self
      · exact List.mem_cons_of_mem _ (ih later)

structure Machine.Part (machine : Machine σ ι ο) (part : Machine τ κ π) where
  /-- What every step of the whole keeps. -/
  good : σ → Prop
  view : σ → τ
  /-- What the part is asked with an input of the whole, if it is concerned. -/
  input : σ → ι → Option κ
  outcome : ο → π
  keeps : ∀ {state} input, good state → good (machine.event state input).after
  apart : ∀ {state given}, good state → input state given = none → view (machine.event state given).after = view state
  own : ∀ {state given asked}, good state → input state given = some asked →
    part.step asked (view state) = (outcome (machine.event state given).outcome, view (machine.event state given).after)
  halts : ∀ {state given asked}, good state → input state given = some asked →
    part.halts (outcome (machine.event state given).outcome) = machine.halts (machine.event state given).outcome

namespace Machine.Part
variable {machine : Machine σ ι ο} {part : Machine τ κ π} (piece : machine.Part part)

def asked (event : Event σ ι ο) : Option κ := piece.input event.before event.input

/-- A step of the whole as the part sees it. -/
def seen (event : Event σ ι ο) : Option (Event τ κ π) :=
  (piece.asked event).map fun asked =>
    { before := piece.view event.before, input := asked, outcome := piece.outcome event.outcome, after := piece.view event.after }

theorem seen_event {state : σ} {given : ι} {asked : κ} (fine : piece.good state)
    (here : piece.input state given = some asked) :
    piece.seen (machine.event state given) = some (part.event (piece.view state) asked) := by
  have step := piece.own fine here
  have same : piece.asked (machine.event state given) = some asked := here
  have whole : part.event (piece.view state) asked = ⟨piece.view state, asked, (part.step asked (piece.view state)).1,
    (part.step asked (piece.view state)).2⟩ := rfl
  rw [seen, same, whole, step]
  rfl

/-- What the part sees of a run is its own run. -/
theorem run {start : σ} (fine : piece.good start) (inputs : List ι) :
    (machine.run start inputs).filterMap piece.seen = part.run (piece.view start)
    ((machine.run start inputs).filterMap piece.asked) := by
  induction inputs generalizing start with
  | nil => rfl
  | cons given rest ih =>
    have later := ih (piece.keeps given fine)
    rw [Machine.run]
    cases here : piece.input start given with
    | none =>
      have silent : piece.asked (machine.event start given) = none := here
      have unseen : piece.seen (machine.event start given) = none := by rw [seen, silent]; rfl
      split
      · simp [silent, unseen, Machine.run]
      · rw [List.filterMap_cons_none unseen, List.filterMap_cons_none silent, later, piece.apart fine here]
    | some asked =>
      have told : piece.asked (machine.event start given) = some asked := here
      have saw := piece.seen_event fine here
      have after : (part.event (piece.view start) asked).after = piece.view (machine.event start given).after :=
        congrArg Prod.snd (piece.own fine here)
      have halts : part.halts (part.event (piece.view start) asked).outcome =
        machine.halts (machine.event start given).outcome := by
        rw [← piece.halts fine here]
        exact congrArg part.halts (congrArg Prod.fst (piece.own fine here))
      split
      next stops =>
        rw [List.filterMap_cons_some saw, List.filterMap_cons_some told, List.filterMap_nil, List.filterMap_nil,
          Machine.run_singleton]
      next goes =>
        rw [List.filterMap_cons_some saw, List.filterMap_cons_some told, Machine.run, halts, if_neg goes, later, after]

end Machine.Part

end

section
variable {σ ι ο : Type}

/-- Each step begins where the one before it ended. -/
def Linked (events : List (Event σ ι ο)) : Prop := events.IsChain fun first second => second.before = first.after

theorem Machine.run_linked (machine : Machine σ ι ο) (inputs : List ι) : ∀ start, Linked (machine.run start inputs) := by
  induction inputs with
  | nil => exact fun _ => .nil
  | cons input rest ih =>
    intro start
    unfold Machine.run
    dsimp only
    split
    · exact .singleton _
    · refine List.isChain_cons.mpr ⟨fun second next => ?_, ih _⟩
      cases rest with
      | nil => simp [Machine.run] at next
      | cons second rest =>
        simp only [Machine.run] at next
        split at next
        · cases next
          rfl
        · cases next
          rfl

section
variable {counter : σ → Nat} {spends refills : Event σ ι ο → Prop} [DecidablePred spends]

/-- How a step that is no refill moves the counter. -/
structure Spending (counter : σ → Nat) (spends refills : Event σ ι ο → Prop) (event : Event σ ι ο) : Prop where
  spent : spends event → counter event.after + 1 ≤ counter event.before
  held : ¬ refills event → counter event.after ≤ counter event.before

theorem Linked.spent_le {events : List (Event σ ι ο)} (linked : Linked events)
    (spending : ∀ event ∈ events, Spending counter spends refills event) (dry : ∀ event ∈ events, ¬ refills event) :
    ∀ first ∈ events.head?, events.countP (fun event => spends event) ≤ counter first.before := by
  induction events with
  | nil =>
    intro first missing
    cases missing
  | cons event rest ih =>
    intro first same
    cases same
    obtain ⟨spent, held⟩ := spending event List.mem_cons_self
    have later := ih (List.isChain_cons.mp linked).2 (fun other inside => spending other (List.mem_cons_of_mem _ inside))
      (fun other inside => dry other (List.mem_cons_of_mem _ inside))
    have behind : rest.countP (fun event => spends event) ≤ counter event.after := by
      cases rest with
      | nil => exact Nat.zero_le _
      | cons second rest =>
        rw [← (List.isChain_cons.mp linked).1 second rfl]
        exact later second rfl
    rw [List.countP_cons]
    by_cases spender : spends event
    · have lower := spent spender
      simp only [spender, decide_true, if_true]
      omega
    · have lower := held (dry event List.mem_cons_self)
      simp only [spender, decide_false, Bool.false_eq_true, if_false]
      omega

/-- In a run whose counter never exceeds `limit`, no stretch without a refill spends
more than that. -/
theorem Machine.spent_le_limit (counter : σ → Nat) {machine : Machine σ ι ο} {start : σ} {inputs : List ι} {limit : Nat}
    (all : Throughout (machine.run start inputs) fun _ event =>
      counter event.before ≤ limit ∧ Spending counter spends refills event)
    {front stretch back : List (Event σ ι ο)} (shape : machine.run start inputs = front ++ stretch ++ back)
    (dry : ∀ event ∈ stretch, ¬ refills event) : stretch.countP (fun event => spends event) ≤ limit := by
  have every : ∀ event ∈ stretch, counter event.before ≤ limit ∧ Spending counter spends refills event := by
    intro event inside
    obtain ⟨left, right, rfl⟩ := List.append_of_mem inside
    exact all (front ++ left) event (right ++ back) (by rw [shape]; simp)
  have linked : Linked stretch :=
    List.IsChain.infix (machine.run_linked inputs start) ⟨front, back, shape.symm⟩
  have bounded := linked.spent_le (fun event inside => (every event inside).2) dry
  cases stretch with
  | nil => exact Nat.zero_le _
  | cons first rest => exact Nat.le_trans (bounded first rfl) (every first List.mem_cons_self).1

end

end

end Hiya.Library
