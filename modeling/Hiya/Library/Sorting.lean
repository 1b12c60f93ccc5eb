import Mathlib.Data.List.Sort

/-! Sorting by a comparison in the way of C, where the sign of a number tells which of two
items comes first. Items that compare as equal may come in any order. -/

namespace Hiya.Library
variable {α β : Type}

structure Comparison (compare : α → α → Int) : Prop where
  total : ∀ first second, compare first second ≤ 0 ∨ compare second first ≤ 0
  trans : ∀ first second third, compare first second ≤ 0 → compare second third ≤ 0 → compare first third ≤ 0

def Ordered (compare : α → α → Int) (items : List α) : Prop := items.Pairwise fun first second => compare first second ≤ 0

/-- What `qsort` promises. -/
structure Sorter (α : Type) where
  sort : (α → α → Int) → List α → List α
  perm : ∀ compare items, (sort compare items).Perm items
  ordered : ∀ {compare}, Comparison compare → ∀ items, Ordered compare (sort compare items)

/-- A comparison that looks at its items through an order. -/
theorem Comparison.of_view {compare : α → α → Int} {le : β → β → Prop} {view : α → β}
    (same : ∀ first second, compare first second ≤ 0 ↔ le (view first) (view second))
    (total : ∀ first second, le first second ∨ le second first)
    (trans : ∀ first second third, le first second → le second third → le first third) : Comparison compare where
  total first second := by
    rw [same, same]
    exact total _ _
  trans first second third := by
    rw [same, same, same]
    exact trans _ _ _

section
variable {compare : α → α → Int}

def sortedBy (compare : α → α → Int) (items : List α) : List α :=
    items.insertionSort fun first second => compare first second ≤ 0

theorem ordered_sortedBy (order : Comparison compare) (items : List α) : Ordered compare (sortedBy compare items) := by
  have total : Std.Total fun first second => compare first second ≤ 0 := ⟨order.total⟩
  have trans : IsTrans α fun first second => compare first second ≤ 0 := ⟨order.trans⟩
  exact List.pairwise_insertionSort _ items

end

namespace Sorter

/-- A sort that keeps equal items as they come. -/
def stable : Sorter α where
  sort := sortedBy
  perm _ items := List.perm_insertionSort _ items
  ordered := ordered_sortedBy

def reversing : Sorter α where
  sort compare items := sortedBy compare items.reverse
  perm _ items := (List.perm_insertionSort _ items.reverse).trans (List.reverse_perm items)
  ordered order items := ordered_sortedBy order items.reverse

end Sorter

end Hiya.Library
