import Mathlib.Logic.Function.Basic
import Mathlib.Data.Fintype.Card

/-! A table whose entries get numbers that were never given before. -/

namespace Hiya.Library

structure Table (α : Type) where
  /-- The number of the next entry. -/
  next : Nat
  entries : Nat → Option α
  fresh : ∀ id, next ≤ id → entries id = none

namespace Table
variable {α : Type} (table : Table α)

def empty : Table α where
  next := 0
  entries _ := none
  fresh _ _ := rfl

theorem add_fresh (item : α) : ∀ id, table.next + 1 ≤ id →
    Function.update table.entries table.next (some item) id = none := by
  intro id later
  have other : id ≠ table.next := Nat.ne_of_gt later
  rw [Function.update_of_ne other]
  exact table.fresh id (Nat.le_of_succ_le later)

def add (item : α) : Table α where
  next := table.next + 1
  entries := Function.update table.entries table.next (some item)
  fresh := table.add_fresh item

theorem change_fresh (place : Nat) (edit : α → α) :
    ∀ id, table.next ≤ id → Function.update table.entries place ((table.entries place).map edit) id = none := by
  intro id later
  by_cases here : id = place
  · subst here
    rw [Function.update_self, table.fresh id later]
    rfl
  · rw [Function.update_of_ne here]
    exact table.fresh id later

def change (place : Nat) (edit : α → α) : Table α where
  next := table.next
  entries := Function.update table.entries place ((table.entries place).map edit)
  fresh := table.change_fresh place edit

theorem erase_fresh (place : Nat) : ∀ id, table.next ≤ id → Function.update table.entries place none id = none := by
  intro id later
  by_cases here : id = place
  · rw [here, Function.update_self]
  · rw [Function.update_of_ne here]
    exact table.fresh id later

def erase (place : Nat) : Table α where
  next := table.next
  entries := Function.update table.entries place none
  fresh := table.erase_fresh place

variable {table}

/-- What is in a table after an entry was added. -/
theorem mem_add {item found : α} {id : Nat} :
    (table.add item).entries id = some found ↔ (id = table.next ∧ found = item) ∨ table.entries id = some found := by
  unfold add
  by_cases here : id = table.next
  · have absent : table.entries id = none := table.fresh id (Nat.le_of_eq here.symm)
    subst here
    simp [absent, eq_comm]
  · simp [here]

theorem mem_change {place id : Nat} {edit : α → α} {found : α} :
    (table.change place edit).entries id = some found ↔
      (id = place ∧ ∃ old, table.entries id = some old ∧ edit old = found) ∨
      (id ≠ place ∧ table.entries id = some found) := by
  unfold change
  by_cases here : id = place
  · subst here
    simp
  · simp [here]

theorem mem_erase {place id : Nat} {found : α} :
    (table.erase place).entries id = some found ↔ id ≠ place ∧ table.entries id = some found := by
  unfold erase
  by_cases here : id = place
  · subst here
    simp
  · simp [here]

theorem lt_of_mem {id : Nat} {found : α} (inside : table.entries id = some found) : id < table.next := by
  by_contra late
  rw [table.fresh id (Nat.le_of_not_lt late)] at inside
  cases inside

end Table

section
variable {ι : Type} [Fintype ι] [DecidableEq ι]

def taken (table : ι → Bool) : Finset ι := Finset.univ.filter fun place => table place = true

omit [DecidableEq ι] in
theorem mem_taken {table : ι → Bool} {place : ι} : place ∈ taken table ↔ table place = true := by simp [taken]

omit [DecidableEq ι] in
theorem card_taken_le (table : ι → Bool) : (taken table).card ≤ Fintype.card ι := Finset.card_le_univ _

omit [DecidableEq ι] in
theorem card_taken_none : (taken fun _ : ι => false).card = 0 := by simp [taken]

theorem taken_take (table : ι → Bool) (place : ι) :
    taken (Function.update table place true) = insert place (taken table) := by
  ext other
  by_cases here : other = place
  · subst here
    simp [mem_taken]
  · simp [mem_taken, here]

theorem taken_free (table : ι → Bool) (place : ι) :
    taken (Function.update table place false) = (taken table).erase place := by
  ext other
  by_cases here : other = place
  · subst here
    simp [mem_taken]
  · simp [mem_taken, here]

/-- Taking a place counts unless it was taken before. -/
theorem card_taken_take (table : ι → Bool) (place : ι) :
    (taken (Function.update table place true)).card = (taken table).card + if table place then 0 else 1 := by
  rw [taken_take]
  split
  next before => rw [Finset.insert_eq_of_mem (mem_taken.mpr before), Nat.add_zero]
  next free => exact Finset.card_insert_of_notMem fun inside => free (mem_taken.mp inside)

theorem card_taken_free {table : ι → Bool} {place : ι} (before : table place = true) :
    (taken (Function.update table place false)).card + 1 = (taken table).card := by
  rw [taken_free]
  exact Finset.card_erase_add_one (mem_taken.mpr before)

end

end Hiya.Library
