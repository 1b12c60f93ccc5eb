import Hiya.Library.Proc

/-! Two computations side by side: one that may go wrong, and one that only
records. They run in lockstep until the first either goes wrong or can no longer
do so; from then on the recorder goes on alone. -/

namespace Hiya.Library

/-- How the two are compared: `live` while they agree, `idle` for a first that
can no longer go wrong, `safe` and `lost` for what the recorder shows then. -/
structure Regime (σ τ ε : Type) where
  live : σ → τ → Prop
  idle : σ → Prop
  safe : τ → Prop
  lost : τ → Prop
  bad : ε

namespace Regime
variable {σ τ ε α β : Type} (regime : Regime σ τ ε)

/-- Same outcome, and nothing has gone wrong. -/
def Agree (first : Except ε α × σ) (second : Except ε α × τ) : Prop :=
  first.1 = second.1 ∧ first.1 ≠ .error regime.bad ∧ regime.live first.2 second.2

/-- The first is done for, one way or the other, and the recorder knows which. -/
def Parted (first : Except ε α × σ) (second : Except ε α × τ) : Prop :=
  (regime.idle first.2 ∧ first.1 ≠ .error regime.bad ∧ regime.safe second.2) ∨
    (first.1 = .error regime.bad ∧ regime.lost second.2)

structure Coupled (first : Proc σ ε α) (second : Proc τ ε α) : Prop where
  step : ∀ {state record}, regime.live state record →
    regime.Agree (first state) (second record) ∨ regime.Parted (first state) (second record)
  idle : ∀ {state}, regime.idle state → regime.idle (first state).2 ∧ (first state).1 ≠ .error regime.bad
  safe : ∀ {record}, regime.safe record → regime.safe (second record).2
  lost : ∀ {record}, regime.lost record → regime.lost (second record).2

variable {regime}

namespace Coupled

protected theorem pure (value : α) : regime.Coupled (pure value) (pure value) where
  step live := .inl ⟨rfl, nofun, live⟩
  idle held := ⟨held, nofun⟩
  safe held := held
  lost held := held

/-- What the recorder has after the first part it still has at the end. -/
private theorem record_bind {second : Proc τ ε α} {next : α → Proc τ ε β} {kept : τ → Prop} {record : τ}
    (reached : kept (second record).2) (tail : ∀ value {record}, kept record → kept (next value record).2) :
    kept ((second >>= next) record).2 := by
  rw [Proc.bind_apply]
  rcases outcome : second record with ⟨_ | value, after⟩ <;> rw [outcome] at reached
  · exact reached
  · exact tail value reached

private theorem idle_bind {first : Proc σ ε α} {next : α → Proc σ ε β} {state : σ}
    (reached : regime.idle (first state).2) (fine : (first state).1 ≠ .error regime.bad)
    (tail : ∀ value {state}, regime.idle state →
      regime.idle (next value state).2 ∧ (next value state).1 ≠ .error regime.bad) :
    regime.idle ((first >>= next) state).2 ∧ ((first >>= next) state).1 ≠ .error regime.bad := by
  rw [Proc.bind_apply]
  rcases outcome : first state with ⟨problem | value, after⟩ <;> rw [outcome] at reached fine
  · exact ⟨reached, fun wrong => fine (by cases wrong; rfl)⟩
  · exact tail value reached

protected theorem bind {first : Proc σ ε α} {second : Proc τ ε α} {next : α → Proc σ ε β} {other : α → Proc τ ε β}
    (head : regime.Coupled first second) (tail : ∀ value, regime.Coupled (next value) (other value)) :
    regime.Coupled (first >>= next) (second >>= other) where
  step {state record} live := by
    rcases head.step live with ⟨same, fine, still⟩ | ⟨held, fine, recorded⟩ | ⟨wrong, recorded⟩
    · -- in lockstep: both stop with the same error, or both go on
      rw [Proc.bind_apply, Proc.bind_apply]
      rcases left : first state with ⟨problem | value, after⟩ <;>
        rcases right : second record with ⟨trouble | answer, later⟩ <;>
        simp only [left, right, reduceCtorEq] at same still fine
      · cases same
        exact .inl ⟨rfl, by simpa using fine, still⟩
      · cases same
        exact (tail value).step still
    · obtain ⟨done, good⟩ := idle_bind held fine fun value => (tail value).idle
      exact .inr (.inl ⟨done, good, record_bind recorded fun value => (tail value).safe⟩)
    · have stopped : ((first >>= next) state).1 = .error regime.bad := by
        rcases left : first state with ⟨problem | value, after⟩ <;> rw [left] at wrong
        · rw [Proc.bind_of_error left]
          cases wrong
          rfl
        · cases wrong
      exact .inr (.inr ⟨stopped, record_bind recorded fun value => (tail value).lost⟩)
  idle held := idle_bind (head.idle held).1 (head.idle held).2 fun value => (tail value).idle
  safe held := record_bind (head.safe held) fun value => (tail value).safe
  lost held := record_bind (head.lost held) fun value => (tail value).lost

protected theorem repeatWith {body : α → Proc σ ε α} {other : α → Proc τ ε α}
    (each : ∀ acc, regime.Coupled (body acc) (other acc)) (count : Nat) :
    ∀ acc, regime.Coupled (Proc.repeatWith count body acc) (Proc.repeatWith count other acc) := by
  induction count with
  | zero => exact fun acc => .pure acc
  | succ count ih => exact fun acc => .bind (each acc) ih

/-- The recorder tells whether the first goes wrong. -/
theorem verdict {first : Proc σ ε α} {second : Proc τ ε α} (coupled : regime.Coupled first second)
    (calm : ∀ {state record}, regime.live state record → ¬ regime.lost record)
    (apart : ∀ {record}, regime.safe record → ¬ regime.lost record) {state : σ} {record : τ}
    (live : regime.live state record) :
    (first state).1 = .error regime.bad ↔ regime.lost (second record).2 := by
  rcases coupled.step live with ⟨-, fine, still⟩ | ⟨-, fine, recorded⟩ | ⟨wrong, recorded⟩
  · exact iff_of_false fine (calm still)
  · exact iff_of_false fine (apart recorded)
  · exact iff_of_true wrong recorded

end Coupled

end Regime

end Hiya.Library
