import Mathlib.Algebra.Group.Nat.Defs
import Mathlib.Tactic.Common

/-! Computations that read and write a state and may fail. A failure keeps the
state reached so far, as a C function that returns an error code keeps the
writes it has already made. -/

namespace Hiya.Library

def Proc (σ ε α : Type) : Type := σ → Except ε α × σ

namespace Proc
variable {σ τ ε ε' α β : Type}

protected def pure (value : α) : Proc σ ε α := fun state => (.ok value, state)

protected def bind (first : Proc σ ε α) (next : α → Proc σ ε β) : Proc σ ε β := fun state =>
  match first state with
  | (.ok value, reached) => next value reached
  | (.error problem, reached) => (.error problem, reached)

instance : Monad (Proc σ ε) where
  pure := Proc.pure
  bind := Proc.bind

def fail (problem : ε) : Proc σ ε α := fun state => (.error problem, state)

def get : Proc σ ε σ := fun state => (.ok state, state)

def modify (change : σ → σ) : Proc σ ε Unit := fun state => (.ok (), change state)

/-- Report one fixed error for every failure of a call. -/
def orFail (problem : ε') (body : Proc σ ε α) : Proc σ ε' α := fun state =>
  match body state with
  | (.ok value, reached) => (.ok value, reached)
  | (.error _, reached) => (.error problem, reached)

/-- A call whose return code is not looked at. -/
def ignore (body : Proc σ ε α) : Proc σ ε' Unit := fun state => (.ok (), (body state).2)

/-- A call that leaves a default in its result when it fails. -/
def withDefault (fallback : α) (body : Proc σ ε α) : Proc σ ε' α := fun state =>
  match body state with
  | (.ok value, reached) => (.ok value, reached)
  | (.error _, reached) => (.ok fallback, reached)

/-- Run a last call whatever came of the body, and look at its return code no more. -/
def closing (body : Proc σ ε α) (last : Proc σ ε' β) : Proc σ ε α := fun state =>
  match body state with
  | (outcome, reached) => (outcome, (last reached).2)

/-- Run a last call only when the body failed. -/
def undoing (body : Proc σ ε α) (last : Proc σ ε' β) : Proc σ ε α := fun state =>
  match body state with
  | (.ok value, reached) => (.ok value, reached)
  | (.error problem, reached) => (.error problem, (last reached).2)

/-- Run a computation on a part of a larger state. -/
def zoom (part : τ → σ) (put : σ → τ → τ) (body : Proc σ ε α) : Proc τ ε α := fun state =>
  match body (part state) with
  | (outcome, reached) => (outcome, put reached state)

/-- A counted loop that threads an accumulator. -/
def repeatWith : Nat → (α → Proc σ ε α) → α → Proc σ ε α
  | 0, _, acc => pure acc
  | count + 1, body, acc => body acc >>= repeatWith count body

/-- A counted loop that the first failure ends; what it has gathered so far stays. -/
def repeatTill : Nat → (α → Proc σ ε α) → α → Proc σ ε' α
  | 0, _, acc => pure acc
  | count + 1, body, acc => fun state =>
    match body acc state with
    | (.ok acc, reached) => repeatTill count body acc reached
    | (.error _, reached) => (.ok acc, reached)

def each (body : α → Proc σ ε Unit) : List α → Proc σ ε Unit
  | [] => pure ()
  | item :: rest => body item >>= fun _ => each body rest

@[simp] theorem pure_apply (value : α) (state : σ) : (pure value : Proc σ ε α) state = (.ok value, state) := rfl

theorem bind_apply (first : Proc σ ε α) (next : α → Proc σ ε β) (state : σ) :
    (first >>= next) state = match first state with
      | (.ok value, reached) => next value reached
      | (.error problem, reached) => (.error problem, reached) := rfl

@[simp] theorem fail_apply (problem : ε) (state : σ) :
    (fail problem : Proc σ ε α) state = (.error problem, state) := rfl

@[simp] theorem get_apply (state : σ) : (get : Proc σ ε σ) state = (.ok state, state) := rfl

@[simp] theorem modify_apply (change : σ → σ) (state : σ) :
    (modify change : Proc σ ε Unit) state = (.ok (), change state) := rfl

theorem bind_of_ok {first : Proc σ ε α} {next : α → Proc σ ε β} {state reached : σ} {value : α}
    (done : first state = (.ok value, reached)) : (first >>= next) state = next value reached := by
  simp only [bind_apply, done]

theorem bind_of_error {first : Proc σ ε α} {next : α → Proc σ ε β} {state reached : σ} {problem : ε}
    (failed : first state = (.error problem, reached)) : (first >>= next) state = (.error problem, reached) := by
  simp only [bind_apply, failed]

/-- What follows matters only where the first part has arrived. -/
theorem bind_congr_at {first : Proc σ ε α} {next other : α → Proc σ ε β} {state : σ}
    (same : ∀ value reached, first state = (.ok value, reached) → next value reached = other value reached) :
    (first >>= next) state = (first >>= other) state := by
  rcases done : first state with ⟨problem | value, reached⟩
  · rw [bind_of_error done, bind_of_error done]
  · rw [bind_of_ok done, bind_of_ok done, same value reached done]

theorem bind_eq_ok {first : Proc σ ε α} {next : α → Proc σ ε β} {state last : σ} {result : β} :
    (first >>= next) state = (.ok result, last) ↔
      ∃ value reached, first state = (.ok value, reached) ∧ next value reached = (.ok result, last) := by
  rw [bind_apply]
  rcases first state with ⟨_ | value, reached⟩
  · simp
  · simp

theorem orFail_eq_ok {problem : ε'} {body : Proc σ ε α} {state last : σ} {result : α} :
    orFail problem body state = (.ok result, last) ↔ body state = (.ok result, last) := by
  unfold orFail
  rcases body state with ⟨_ | value, reached⟩
  · simp
  · simp

instance : LawfulMonad (Proc σ ε) :=
  LawfulMonad.mk' (Proc σ ε)
    (fun body => by
      funext state
      change (body >>= fun value => pure value) state = body state
      rw [bind_apply]
      rcases body state with ⟨_ | value, reached⟩
      · rfl
      · rfl)
    (fun _ _ => rfl)
    (fun body first second => by
      funext state
      simp only [bind_apply]
      rcases body state with ⟨_ | value, reached⟩
      · rfl
      · rfl)

theorem orFail_bind (problem : ε') (first : Proc σ ε α) (next : α → Proc σ ε β) :
    orFail problem (first >>= next) = orFail problem first >>= fun value => orFail problem (next value) := by
  funext state
  simp only [orFail, bind_apply]
  rcases first state with ⟨_ | value, reached⟩
  · rfl
  · rfl

theorem each_append (body : α → Proc σ ε Unit) (first second : List α) :
    each body (first ++ second) = each body first >>= fun _ => each body second := by
  induction first with
  | nil => rfl
  | cons item rest ih =>
    simp only [List.cons_append, each, ih, bind_assoc]

/-! What a computation leaves when its result is looked at through a function. -/

theorem map_apply (look : α → β) (body : Proc σ ε α) (state : σ) :
    (look <$> body) state = ((body state).1.map look, (body state).2) := by
  rw [map_eq_pure_bind, bind_apply]
  rcases body state with ⟨_ | value, reached⟩
  · rfl
  · rfl

theorem map_zoom (look : α → β) (part : τ → σ) (put : σ → τ → τ) (body : Proc σ ε α) :
    look <$> zoom part put body = zoom part put (look <$> body) := by
  funext state
  rw [map_apply]
  unfold zoom
  rw [map_apply]

/-- A loop whose body does more than another one does, seen through what they share. -/
theorem map_repeatWith {body : α → Proc σ ε α} {other : β → Proc σ ε β} {look : α → β}
    (each : ∀ acc, look <$> body acc = other (look acc)) (count : Nat) :
    ∀ acc, look <$> repeatWith count body acc = repeatWith count other (look acc) := by
  induction count with
  | zero => exact fun acc => rfl
  | succ count ih =>
    intro acc
    unfold repeatWith
    rw [map_bind, ← each acc, bind_map_left]
    exact bind_congr ih

end Proc

theorem bind_eq_ok {ε α β : Type} {first : Except ε α} {next : α → Except ε β} {result : β} :
    (first >>= next) = .ok result ↔ ∃ value, first = .ok value ∧ next value = .ok result := by
  cases first with
  | error problem => simp [bind, Except.bind]
  | ok value => simp [bind, Except.bind]

end Hiya.Library
