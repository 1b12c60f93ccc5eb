import Mathlib.Data.List.GetD

/-! Arrays of a fixed size that are read and written by number, and loops that count. To
read past the end gives a default value; a proof that stays inside never meets it. -/

namespace Hiya.Library

def Vec (α : Type) (size : Nat) : Type := { items : List α // items.length = size }

namespace Vec
variable {α : Type} {size : Nat}

instance [DecidableEq α] : DecidableEq (Vec α size) := inferInstanceAs (DecidableEq { items : List α // items.length = size })

def set (vec : Vec α size) (place : Nat) (value : α) : Vec α size :=
  ⟨vec.val.set place value, by rw [List.length_set, vec.property]⟩

def build (size : Nat) (value : Nat → α) : Vec α size :=
  ⟨(List.range size).map value, by rw [List.length_map, List.length_range]⟩

/-- Values for several places, written one after another. -/
def scatter (vec : Vec α size) (count : Nat) (place : Nat → Nat) (value : Nat → α) : Vec α size :=
  (List.range count).foldl (fun vec number => vec.set (place number) (value number)) vec

theorem scatter_succ (vec : Vec α size) (place : Nat → Nat) (value : Nat → α) (count : Nat) :
    vec.scatter (count + 1) place value = (vec.scatter count place value).set (place count) (value count) := by
  unfold scatter
  rw [List.range_succ, List.foldl_append]
  rfl

variable [Inhabited α]

instance : Inhabited (Vec α size) := ⟨build size fun _ => default⟩

def get (vec : Vec α size) (place : Nat) : α := vec.val.getD place default

theorem ext {first second : Vec α size} (same : ∀ place < size, first.get place = second.get place) : first = second := by
  refine Subtype.ext (List.ext_getElem (first.property.trans second.property.symm) fun place here there => ?_)
  have inside : place < size := first.property ▸ here
  have equal := same place inside
  unfold get at equal
  rwa [List.getD_eq_getElem _ _ here, List.getD_eq_getElem _ _ there] at equal

theorem get_build {place : Nat} (value : Nat → α) (inside : place < size) : (build size value).get place = value place := by
  unfold get build
  rw [List.getD_eq_getElem _ _ (by rwa [List.length_map, List.length_range]), List.getElem_map, List.getElem_range]

theorem get_set (vec : Vec α size) {place : Nat} (value : α) (inside : place < size) (other : Nat) :
    (vec.set place value).get other = if place = other then value else vec.get other := by
  unfold get set
  rw [List.getD_eq_getElem?_getD, List.getD_eq_getElem?_getD, List.getElem?_set]
  split
  next =>
    rw [if_pos (by rw [vec.property]; exact inside)]
    rfl
  next => rfl

section
variable (vec : Vec α size) {place : Nat → Nat} (value : Nat → α)

theorem get_scatter_of_ne {count : Nat} (inside : ∀ number < count, place number < size) {other : Nat}
    (apart : ∀ number < count, place number ≠ other) : (vec.scatter count place value).get other = vec.get other := by
  induction count with
  | zero => rfl
  | succ count ih =>
    rw [scatter_succ, get_set _ _ (inside count (Nat.lt_succ_self count)), if_neg (apart count (Nat.lt_succ_self count))]
    exact ih (fun number less => inside number (Nat.lt_succ_of_lt less))
      (fun number less => apart number (Nat.lt_succ_of_lt less))

theorem get_scatter {count : Nat} (inside : ∀ number < count, place number < size)
    (apart : ∀ first < count, ∀ second < count, place first = place second → first = second) {number : Nat}
    (less : number < count) :
    (vec.scatter count place value).get (place number) = value number := by
  induction count with
  | zero => omega
  | succ count ih =>
    rw [scatter_succ, get_set _ _ (inside count (Nat.lt_succ_self count))]
    split
    next same => rw [apart count (Nat.lt_succ_self count) number less same]
    next other =>
      have before : number < count := by
        rcases Nat.lt_succ_iff_lt_or_eq.mp less with before | rfl
        · exact before
        · exact absurd rfl other
      exact ih (fun number less => inside number (Nat.lt_succ_of_lt less))
        (fun first one second two => apart first (Nat.lt_succ_of_lt one) second (Nat.lt_succ_of_lt two)) before

end

end Vec

theorem foldl_range'_keeps {α : Type} (holds : Nat → α → Prop) {body : α → Nat → α} {first count : Nat}
    (step : ∀ number, first ≤ number → number < first + count → ∀ a, holds number a → holds (number + 1) (body a number))
    {a : α} (start : holds first a) : holds (first + count) ((List.range' first count).foldl body a) := by
  induction count with
  | zero => exact start
  | succ count ih =>
    rw [List.range'_1_concat, List.foldl_append]
    exact step (first + count) (by omega) (by omega) _ (ih fun number low high => step number low (by omega))

/-- Two loops that count through the same numbers side by side. -/
theorem foldl_range'_rel {α β : Type} (related : Nat → α → β → Prop) {left : α → Nat → α} {right : β → Nat → β}
    {first count : Nat}
    (step : ∀ number, first ≤ number → number < first + count → ∀ a b, related number a b →
    related (number + 1) (left a number) (right b number))
    {a : α} {b : β} (start : related first a b) :
    related (first + count) ((List.range' first count).foldl left a) ((List.range' first count).foldl right b) := by
  induction count with
  | zero => exact start
  | succ count ih =>
    rw [List.range'_1_concat, List.foldl_append, List.foldl_append]
    exact step (first + count) (by omega) (by omega) _ _ (ih fun number low high => step number low (by omega))

end Hiya.Library
