import Mathlib.Algebra.Group.Nat.Defs
import Mathlib.Tactic.Common

/-! A list-valued field of a record: how to read it, how to replace it, and what
pushing items onto it one by one amounts to. -/

namespace Hiya.Library

structure Slot (ρ α : Type) where
  get : ρ → List α
  put : List α → ρ → ρ
  get_put : ∀ items record, get (put items record) = items
  put_get : ∀ record, put (get record) record = record
  put_put : ∀ first second record, put second (put first record) = put second record

namespace Slot
variable {ρ α : Type} (slot : Slot ρ α)

def push (record : ρ) (item : α) : ρ := slot.put (slot.get record ++ [item]) record

theorem foldl_push (items : List α) (record : ρ) :
    items.foldl slot.push record = slot.put (slot.get record ++ items) record := by
  induction items generalizing record with
  | nil => rw [List.append_nil, slot.put_get, List.foldl_nil]
  | cons item rest ih =>
    rw [List.foldl_cons, ih, push, slot.get_put, slot.put_put, List.append_assoc, List.singleton_append]

end Slot

end Hiya.Library
