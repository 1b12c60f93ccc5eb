import Mathlib.Logic.Relation

/-! Programs as far as the locks they take. A routine asks for locks and gives them
back, runs a main loop in between that lets other work in, and goes one way or another by
what it sees. Threads wait for each other through the locks: where every thread waits
only for locks above those it holds, nobody waits in a circle. -/

namespace Hiya.Library

inductive Routine (κ α : Type) where
  | done (value : α)
  | lock (key : κ) (rest : Routine κ α)
  | unlock (key : κ) (rest : Routine κ α)
  /-- A main loop, run until an operation in the background has ended. -/
  | loop (rest : Routine κ α)
  /-- A branch that the locks do not decide. -/
  | choose (rest : Bool → Routine κ α)

namespace Routine
variable {κ α β : Type}

protected def bind : Routine κ α → (α → Routine κ β) → Routine κ β
  | .done value, next => next value
  | .lock key rest, next => .lock key (rest.bind next)
  | .unlock key rest, next => .unlock key (rest.bind next)
  | .loop rest, next => .loop (rest.bind next)
  | .choose rest, next => .choose fun answer => (rest answer).bind next

instance : Monad (Routine κ) where
  pure := .done
  bind := Routine.bind

def take (key : κ) : Routine κ Unit := .lock key (.done ())

def release (key : κ) : Routine κ Unit := .unlock key (.done ())

def runLoop : Routine κ Unit := .loop (.done ())

def decides : Routine κ Bool := .choose .done

/-- The main loop is running, and work that comes in is begun. -/
def idles : Routine κ α → Bool
  | .loop _ => true
  | _ => false

def asks : Routine κ α → Option κ
  | .lock key _ => some key
  | _ => none

section
variable [DecidableEq κ] (rank : κ → Nat) (calm : κ → Prop)

/-- From the locks held to the locks held at the end: a lock is taken only above all that
are held, only a lock that is held is given back, and a main loop runs only under locks
that are calm. -/
def Orderly : List κ → Routine κ α → List κ → Prop
  | held, .done _, last => held = last
  | held, .lock key rest, last => (∀ other ∈ held, rank other < rank key) ∧ Orderly (key :: held) rest last
  | held, .unlock key rest, last => key ∈ held ∧ Orderly (held.erase key) rest last
  | held, .loop rest, last => (∀ other ∈ held, calm other) ∧ Orderly held rest last
  | held, .choose rest, last => ∀ answer, Orderly held (rest answer) last

variable {rank calm} {held middle last : List κ} {next : α → Routine κ β}

theorem Orderly.bind {first : Routine κ α} (before : Orderly rank calm held first middle)
    (after : ∀ value, Orderly rank calm middle (next value) last) : Orderly rank calm held (first >>= next) last := by
  induction first generalizing held with
  | done value =>
    cases before
    exact after value
  | lock key rest ih => exact ⟨before.1, ih before.2⟩
  | unlock key rest ih => exact ⟨before.1, ih before.2⟩
  | loop rest ih => exact ⟨before.1, ih before.2⟩
  | choose rest ih => exact fun answer => ih answer (before answer)

@[simp] theorem orderly_pure (value : α) : Orderly rank calm held (pure value) last ↔ held = last := Iff.rfl

@[simp] theorem orderly_take {key : κ} {next : Unit → Routine κ β} :
    Orderly rank calm held (take key >>= next) last ↔
      (∀ other ∈ held, rank other < rank key) ∧ Orderly rank calm (key :: held) (next ()) last := Iff.rfl

@[simp] theorem orderly_release {key : κ} {next : Unit → Routine κ β} :
    Orderly rank calm held (release key >>= next) last ↔
      key ∈ held ∧ Orderly rank calm (held.erase key) (next ()) last := Iff.rfl

@[simp] theorem orderly_release_last {key : κ} :
    Orderly rank calm held (release key) last ↔ key ∈ held ∧ held.erase key = last := Iff.rfl

@[simp] theorem orderly_runLoop {next : Unit → Routine κ β} :
    Orderly rank calm held (runLoop >>= next) last ↔
      (∀ other ∈ held, calm other) ∧ Orderly rank calm held (next ()) last := Iff.rfl

@[simp] theorem orderly_decides {next : Bool → Routine κ β} :
    Orderly rank calm held (decides >>= next) last ↔ ∀ answer, Orderly rank calm held (next answer) last := Iff.rfl

@[simp] theorem orderly_decides_last : Orderly rank calm held decides last ↔ held = last := by
  change (∀ _ : Bool, held = last) ↔ held = last
  simp

end

end Routine

/-- Who holds which lock, and who waits for which. -/
structure Standing (θ κ : Type) where
  holds : θ → κ → Prop
  waits : θ → κ → Prop

namespace Standing
variable {θ κ : Type} (standing : Standing θ κ)

/-- A thread waits for a lock that it holds itself. -/
def SelfWait : Prop := ∃ thread key, standing.waits thread key ∧ standing.holds thread key

def Blocked (thread other : θ) : Prop := ∃ key, standing.waits thread key ∧ standing.holds other key

/-- Threads wait for each other in a circle. -/
def Circular : Prop := ∃ thread, Relation.TransGen standing.Blocked thread thread

def Deadlocked : Prop := standing.SelfWait ∨ standing.Circular

variable {standing}

/-- Along a chain of waiting threads the locks climb. -/
theorem climbs_along {rank : κ → Nat}
    (climbs : ∀ thread held wanted, standing.holds thread held → standing.waits thread wanted → rank held < rank wanted)
    {thread other : θ} (chain : Relation.TransGen standing.Blocked thread other) :
    ∃ wanted held, standing.waits thread wanted ∧ standing.holds other held ∧ rank wanted ≤ rank held := by
  induction chain with
  | single link =>
    obtain ⟨key, waiting, holding⟩ := link
    exact ⟨key, key, waiting, holding, Nat.le_refl _⟩
  | @tail middle other _ link ih =>
    obtain ⟨wanted, held, waiting, holding, below⟩ := ih
    obtain ⟨key, asked, kept⟩ := link
    have above : rank held < rank key := climbs middle held key holding asked
    exact ⟨wanted, key, waiting, kept, Nat.le_trans below (Nat.le_of_lt above)⟩

theorem not_deadlocked_of_rank (rank : κ → Nat)
    (climbs : ∀ thread held wanted, standing.holds thread held → standing.waits thread wanted → rank held < rank wanted) :
    ¬ standing.Deadlocked := by
  rintro (⟨thread, key, waiting, holding⟩ | ⟨thread, circle⟩)
  · exact Nat.lt_irrefl _ (climbs thread key key holding waiting)
  · obtain ⟨wanted, held, waiting, holding, below⟩ := climbs_along climbs circle
    exact Nat.not_le.mpr (climbs thread held wanted holding waiting) below

theorem circular_of_pair {thread other : θ} (forth : standing.Blocked thread other) (back : standing.Blocked other thread) :
    standing.Circular := ⟨thread, .tail (.single forth) back⟩

end Standing

end Hiya.Library
