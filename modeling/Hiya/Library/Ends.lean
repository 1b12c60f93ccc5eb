import Hiya.Library.Proc
import Mathlib.Data.Set.BooleanAlgebra
import Mathlib.Data.Set.Disjoint
import Mathlib.Order.CompletePartialOrder

/-! What holds when a computation ends, whichever way it ends: a predicate on its
outcome and the state it leaves, taken apart along the computation. -/

namespace Hiya.Library.Proc
variable {σ ε ε' α β : Type}

def Ends (body : Proc σ ε α) (state : σ) (post : Except ε α → σ → Prop) : Prop := post (body state).1 (body state).2

namespace Ends
variable {state : σ} {post : Except ε α → σ → Prop}

protected theorem pure {value : α} (holds : post (.ok value) state) : Ends (pure value) state post := holds

protected theorem fail {problem : ε} (holds : post (.error problem) state) : Ends (Proc.fail problem) state post := holds

protected theorem modify {change : σ → σ} {post : Except ε Unit → σ → Prop} (holds : post (.ok ()) (change state)) :
    Ends (Proc.modify change) state post := holds

protected theorem bind {first : Proc σ ε β} {next : β → Proc σ ε α}
    (head : Ends first state fun outcome reached => match outcome with
      | .ok value => Ends (next value) reached post
      | .error problem => post (.error problem) reached) :
    Ends (first >>= next) state post := by
  unfold Ends at head ⊢
  rw [bind_apply]
  rcases outcome : first state with ⟨problem | value, reached⟩ <;> rw [outcome] at head
  · exact head
  · exact head

protected theorem get {next : σ → Proc σ ε α} (rest : Ends (next state) state post) :
    Ends (Proc.get >>= next) state post := rest

protected theorem andThen {change : σ → σ} {next : Unit → Proc σ ε α} (rest : Ends (next ()) (change state) post) :
    Ends (Proc.modify change >>= next) state post := rest

theorem of_eq {body : Proc σ ε α} {outcome : Except ε α} {reached : σ} (ran : body state = (outcome, reached))
    (holds : post outcome reached) : Ends body state post := by
  unfold Ends
  rwa [ran]

protected theorem undoing {body : Proc σ ε α} {last : Proc σ ε' β}
    (head : Ends body state fun outcome reached => match outcome with
      | .ok value => post (.ok value) reached
      | .error problem => post (.error problem) (last reached).2) :
    Ends (body.undoing last) state post := by
  unfold Ends Proc.undoing at *
  rcases outcome : body state with ⟨problem | value, reached⟩ <;> rw [outcome] at head
  · exact head
  · exact head

protected theorem mono {body : Proc σ ε α} {weaker : Except ε α → σ → Prop} (holds : Ends body state post)
    (implies : ∀ outcome reached, post outcome reached → weaker outcome reached) : Ends body state weaker :=
  implies _ _ holds

protected theorem ite {condition : Prop} [Decidable condition] {first second : Proc σ ε α}
    (yes : condition → Ends first state post) (no : ¬ condition → Ends second state post) :
    Ends (if condition then first else second) state post := by
  split
  next holds => exact yes holds
  next fails => exact no fails

end Ends

/-- A view of the state that a computation leaves alone, however it ends. -/
def Keeps {γ : Type} (view : σ → γ) (body : Proc σ ε α) : Prop := ∀ state, view (body state).2 = view state

namespace Keeps
variable {γ : Type} {view : σ → γ}

protected theorem pure (value : α) : Keeps view (pure value : Proc σ ε α) := fun _ => rfl

protected theorem fail (problem : ε) : Keeps view (Proc.fail problem : Proc σ ε α) := fun _ => rfl

protected theorem get : Keeps view (Proc.get : Proc σ ε σ) := fun _ => rfl

protected theorem modify {change : σ → σ} (same : ∀ state, view (change state) = view state) :
    Keeps view (Proc.modify change : Proc σ ε Unit) := same

protected theorem bind {first : Proc σ ε β} {next : β → Proc σ ε α} (head : Keeps view first)
    (tail : ∀ value, Keeps view (next value)) : Keeps view (first >>= next) := by
  intro state
  have reached := head state
  rw [bind_apply]
  rcases outcome : first state with ⟨problem | value, after⟩ <;> rw [outcome] at reached
  · exact reached
  · exact (tail value after).trans reached

protected theorem ignore {body : Proc σ ε α} (holds : Keeps view body) : Keeps view (body.ignore : Proc σ ε' Unit) :=
  holds

protected theorem undoing {body : Proc σ ε α} {last : Proc σ ε' β} (kept : Keeps view body) (undone : Keeps view last) :
    Keeps view (body.undoing last) := by
  intro state
  have reached := kept state
  unfold Proc.undoing
  rcases outcome : body state with ⟨problem | value, after⟩ <;> rw [outcome] at reached
  · exact (undone after).trans reached
  · exact reached

protected theorem withDefault {body : Proc σ ε α} {fallback : α} (holds : Keeps view body) :
    Keeps view (body.withDefault fallback : Proc σ ε' α) := by
  intro state
  have reached := holds state
  unfold Proc.withDefault
  rcases outcome : body state with ⟨problem | value, after⟩ <;> rw [outcome] at reached
  · exact reached
  · exact reached

protected theorem ite {condition : Prop} [Decidable condition] {first second : Proc σ ε α} (yes : Keeps view first)
    (no : Keeps view second) : Keeps view (if condition then first else second) := by
  split
  · exact yes
  · exact no

/-- A computation that keeps all but some part keeps what does not look at that part. -/
theorem through {part : σ → σ} {body : Proc σ ε α} (keeps : Keeps part body)
    (blind : ∀ state, view (part state) = view state) :
    Keeps view body := by
  intro state
  rw [← blind, keeps state, blind]

/-- A view that does not look at the part a computation works on. -/
protected theorem zoom {τ : Type} {view : τ → γ} {part : τ → σ} {put : σ → τ → τ}
    (blind : ∀ left state, view (put left state) = view state)
    (body : Proc σ ε α) : Keeps view (Proc.zoom part put body) := fun state => blind _ state

protected theorem repeatWith {body : α → Proc σ ε α} (each : ∀ acc, Keeps view (body acc)) (count : Nat) :
    ∀ acc, Keeps view (repeatWith count body acc) := by
  induction count with
  | zero => exact fun acc => .pure acc
  | succ count ih => exact fun acc => .bind (each acc) ih

/-- Go on after a part that leaves the view alone, knowing only that. -/
theorem ends {first : Proc σ ε β} {next : β → Proc σ ε α} {state : σ} {post : Except ε α → σ → Prop}
    (head : Keeps view first) (failed : ∀ problem reached, view reached = view state → post (.error problem) reached)
    (rest : ∀ value reached, view reached = view state → Ends (next value) reached post) :
    Ends (first >>= next) state post := by
  have same := head state
  apply Ends.bind
  unfold Ends
  rcases outcome : first state with ⟨problem | value, reached⟩ <;> rw [outcome] at same
  · exact failed problem reached same
  · exact rest value reached same

end Keeps

/-- A property of the state that a computation does not lose, however it ends. -/
def Preserves (invariant : σ → Prop) (body : Proc σ ε α) : Prop := ∀ state, invariant state → invariant (body state).2

namespace Preserves
variable {invariant : σ → Prop}

protected theorem pure (value : α) : Preserves invariant (pure value : Proc σ ε α) := fun _ holds => holds

protected theorem bind {first : Proc σ ε β} {next : β → Proc σ ε α} (head : Preserves invariant first)
    (tail : ∀ value, Preserves invariant (next value)) : Preserves invariant (first >>= next) := by
  intro state holds
  have kept := head state holds
  rw [bind_apply]
  rcases outcome : first state with ⟨problem | value, reached⟩ <;> rw [outcome] at kept
  · exact kept
  · exact tail value reached kept

protected theorem repeatWith {body : α → Proc σ ε α} (kept : ∀ acc, Preserves invariant (body acc)) (count : Nat) :
    ∀ acc, Preserves invariant (repeatWith count body acc) := by
  induction count with
  | zero => exact fun acc => .pure acc
  | succ count ih => exact fun acc => .bind (kept acc) ih

end Preserves

/-- A relation between the states before and after a computation, however it ends. -/
def Moves (rel : σ → σ → Prop) (body : Proc σ ε α) : Prop := ∀ state, rel state (body state).2

namespace Moves
variable {rel : σ → σ → Prop}

protected theorem modify {change : σ → σ} (step : ∀ state, rel state (change state)) :
    Moves rel (Proc.modify change : Proc σ ε Unit) := step

protected theorem ignore {body : Proc σ ε α} (holds : Moves rel body) : Moves rel (body.ignore : Proc σ ε' Unit) := holds

protected theorem withDefault {body : Proc σ ε α} {fallback : α} (holds : Moves rel body) :
    Moves rel (body.withDefault fallback : Proc σ ε' α) := by
  intro state
  have reached := holds state
  unfold Proc.withDefault
  rcases outcome : body state with ⟨problem | value, after⟩ <;> rw [outcome] at reached
  · exact reached
  · exact reached

protected theorem ite {condition : Prop} [Decidable condition] {first second : Proc σ ε α} (yes : Moves rel first)
    (no : Moves rel second) : Moves rel (if condition then first else second) := by
  split
  · exact yes
  · exact no

variable [IsPreorder σ rel]

protected theorem pure (value : α) : Moves rel (pure value : Proc σ ε α) := fun state => refl_of rel state

protected theorem fail (problem : ε) : Moves rel (Proc.fail problem : Proc σ ε α) := fun state => refl_of rel state

protected theorem get : Moves rel (Proc.get : Proc σ ε σ) := fun state => refl_of rel state

protected theorem bind {first : Proc σ ε β} {next : β → Proc σ ε α} (head : Moves rel first)
    (tail : ∀ value, Moves rel (next value)) : Moves rel (first >>= next) := by
  intro state
  have reached := head state
  rw [bind_apply]
  rcases outcome : first state with ⟨problem | value, after⟩ <;> rw [outcome] at reached
  · exact reached
  · exact trans_of rel reached (tail value after)

end Moves

def Atomic (body : Proc σ ε α) : Prop := ∀ state problem, (body state).1 = .error problem → (body state).2 = state

namespace Atomic

protected theorem fail (problem : ε) : Atomic (Proc.fail problem : Proc σ ε α) := fun _ _ _ => rfl

protected theorem modify (change : σ → σ) : Atomic (Proc.modify change : Proc σ ε Unit) := by
  intro state problem failed
  cases failed

/-- What comes before the only write does not touch the state. -/
protected theorem bind {first : Proc σ ε β} {next : β → Proc σ ε α} (head : Keeps id first)
    (tail : ∀ value, Atomic (next value)) :
    Atomic (first >>= next) := by
  intro state problem failed
  have reached : (first state).2 = state := head state
  rw [bind_apply] at failed ⊢
  rcases outcome : first state with ⟨other | value, after⟩ <;> rw [outcome] at reached failed
  · exact reached
  · exact (tail value after problem failed).trans reached

protected theorem ite {condition : Prop} [Decidable condition] {first second : Proc σ ε α} (yes : Atomic first)
    (no : Atomic second) :
    Atomic (if condition then first else second) := by
  split
  · exact yes
  · exact no

end Atomic

section
variable {σ ε ε' α β : Type}

def Ensures (body : Proc σ ε α) (post : α → Prop) : Prop :=
  ∀ state value last, body state = (.ok value, last) → post value

namespace Ensures

protected theorem pure {value : α} {post : α → Prop} (holds : post value) :
    Ensures (pure value : Proc σ ε α) post := by
  intro state result last done
  cases done
  exact holds

protected theorem fail {problem : ε} {post : α → Prop} : Ensures (fail problem : Proc σ ε α) post := by
  intro state result last done
  cases done

protected theorem trivial (body : Proc σ ε α) : Ensures body fun _ => True :=
  fun _ _ _ _ => True.intro

protected theorem bind {first : Proc σ ε α} {next : α → Proc σ ε β} {middle : α → Prop} {post : β → Prop}
    (start : Ensures first middle) (continues : ∀ value, middle value → Ensures (next value) post) :
    Ensures (first >>= next) post := by
  intro state result last done
  obtain ⟨value, reached, head, tail⟩ := bind_eq_ok.mp done
  exact continues value (start state value reached head) reached result last tail

/-- The postcondition of the first part is not needed. -/
protected theorem after {first : Proc σ ε α} {next : α → Proc σ ε β} {post : β → Prop}
    (continues : ∀ value, Ensures (next value) post) : Ensures (first >>= next) post :=
  .bind (.trivial first) fun value _ => continues value

protected theorem orFail {body : Proc σ ε α} {problem : ε'} {post : α → Prop}
    (holds : Ensures body post) : Ensures (orFail problem body) post :=
  fun state value last done => holds state value last (orFail_eq_ok.mp done)

protected theorem ite {condition : Prop} [Decidable condition] {first second : Proc σ ε α} {post : α → Prop}
    (yes : condition → Ensures first post) (no : ¬condition → Ensures second post) :
    Ensures (if condition then first else second) post := by
  split
  next holds => exact yes holds
  next fails => exact no fails

/-- A loop keeps every property that its body keeps. -/
protected theorem repeatWith {body : α → Proc σ ε α} {invariant : α → Prop}
    (kept : ∀ acc, invariant acc → Ensures (body acc) invariant) (count : Nat) :
    ∀ acc, invariant acc → Ensures (repeatWith count body acc) invariant := by
  induction count with
  | zero => exact fun acc holds => .pure holds
  | succ count ih => exact fun acc holds => .bind (kept acc holds) ih

end Ensures

end

section
variable {σ ε ε' α β ρ : Type} {held : σ → Set ρ} {lost more : Set ρ}

/-- What is gained was not held before; a failure lets go of what is named. -/
def Gains (held : σ → Set ρ) (lost : Set ρ) (gained : α → Set ρ) (body : Proc σ ε α) : Prop :=
  ∀ state, lost ⊆ held state →
    (∀ value reached, body state = (.ok value, reached) → Disjoint (gained value) (held state) ∧
      held reached = held state ∪ gained value) ∧
      ∀ problem reached, body state = (.error problem, reached) → held reached = held state \ lost

/-- Whichever way it ends, the computation lets go of what is named. -/
def Releases (held : σ → Set ρ) (lost : Set ρ) (body : Proc σ ε α) : Prop :=
  ∀ state, lost ⊆ held state → held (body state).2 = held state \ lost

theorem Keeps.releases {body : Proc σ ε α} (keeps : Keeps held body) : Releases held ∅ body := by
  intro state _
  rw [keeps state, Set.sdiff_empty]

theorem Releases.keeps {body : Proc σ ε α} (releases : Releases held ∅ body) : Keeps held body := by
  intro state
  rw [releases state (Set.empty_subset _), Set.sdiff_empty]

theorem Keeps.gains {body : Proc σ ε α} (keeps : Keeps held body) : Gains held ∅ (fun _ => ∅) body := by
  intro state _
  refine ⟨fun value reached done => ⟨Set.empty_disjoint _, ?_⟩, fun problem reached failed => ?_⟩
  · rw [Set.union_empty, ← keeps state, done]
  · rw [Set.sdiff_empty, ← keeps state, failed]

/-- A failure that is undone by letting go of more. -/
theorem Gains.undoing {gained : α → Set ρ} {body : Proc σ ε α} {last : Proc σ ε' β} (gains : Gains held lost gained body)
    (releases : Releases held more last) (apart : Disjoint lost more) :
    Gains held (lost ∪ more) gained (body.undoing last) := by
  intro state there
  obtain ⟨succeeds, fails⟩ := gains state (Set.subset_union_left.trans there)
  unfold Proc.undoing
  rcases done : body state with ⟨problem | value, reached⟩
  · have half := fails problem reached done
    have still : more ⊆ held reached := by
      rw [half]
      exact Set.subset_sdiff.mpr ⟨Set.subset_union_right.trans there, apart.symm⟩
    refine ⟨nofun, fun _ final ended => ?_⟩
    obtain ⟨_, rfl⟩ := Prod.mk.inj ended
    rw [releases reached still, half, Set.sdiff_sdiff]
  · refine ⟨fun _ final ended => ?_, nofun⟩
    obtain ⟨same, rfl⟩ := Prod.mk.inj ended
    cases same
    exact succeeds value reached done

/-- What was gained is let go of by what follows. -/
theorem Gains.bind {gained : α → Set ρ} {first : Proc σ ε α} {next : α → Proc σ ε β} (gains : Gains held lost gained first)
    (rest : ∀ value, Disjoint (gained value) lost → Releases held (lost ∪ gained value) (next value)) :
    Releases held lost (first >>= next) := by
  intro state there
  obtain ⟨succeeds, fails⟩ := gains state there
  rcases done : first state with ⟨problem | value, reached⟩
  · rw [Proc.bind_of_error done]
    exact fails problem reached done
  · obtain ⟨fresh, half⟩ := succeeds value reached done
    have both : lost ∪ gained value ⊆ held reached := by
      rw [half]
      exact Set.union_subset_union_left _ there
    rw [Proc.bind_of_ok done, rest value (fresh.mono_right there) reached both, half, Set.union_comm lost, ← Set.sdiff_sdiff,
      Set.union_sdiff_cancel_right fresh.symm.le_bot]

theorem Releases.bind {first : Proc σ ε α} {next : α → Proc σ ε β} (releases : Releases held lost first)
    (rest : ∀ value, Keeps held (next value)) : Releases held lost (first >>= next) := by
  intro state there
  have half := releases state there
  rcases done : first state with ⟨problem | value, reached⟩
  · rw [done] at half
    rwa [Proc.bind_of_error done]
  · rw [done] at half
    rw [Proc.bind_of_ok done, rest value reached, half]

/-- A last step that is taken whichever way the computation ends. -/
theorem Releases.closing {body : Proc σ ε α} {last : Proc σ ε' β} (releases : Releases held lost body)
    (lets : Releases held more last)
    (apart : Disjoint lost more) : Releases held (lost ∪ more) (body.closing last) := by
  intro state there
  have half := releases state (Set.subset_union_left.trans there)
  have still : more ⊆ held (body state).2 := by
    rw [half]
    exact Set.subset_sdiff.mpr ⟨Set.subset_union_right.trans there, apart.symm⟩
  change held (last (body state).2).2 = _
  rw [lets _ still, half, Set.sdiff_sdiff]

end

end Hiya.Library.Proc
