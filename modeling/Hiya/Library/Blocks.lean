import Mathlib.Data.List.Basic
import Mathlib.Tactic.Common

/-! Messages that are taken block by block while the last block, which may be a full one, is kept
back until the message ends. Pieces of a message can be handed in one by one, as what is kept back
is all that later pieces have to be joined to. -/

namespace Hiya.Library

variable {α σ : Type}

/-- The blocks in front of the last, and the last. -/
def cut (size : Nat) (message : List α) : List (List α) × List α :=
  if 0 < size ∧ size < message.length then
    let (blocks, last) := cut size (message.drop size)
    (message.take size :: blocks, last)
  else ([], message)
termination_by message.length
decreasing_by
  rw [List.length_drop]
  omega

theorem cut_short {size : Nat} {message : List α} (short : message.length ≤ size) : cut size message = ([], message) := by
  unfold cut
  rw [if_neg (by omega)]

theorem cut_long {size : Nat} {message : List α} (positive : 0 < size) (long : size < message.length) :
    cut size message = (message.take size :: (cut size (message.drop size)).1, (cut size (message.drop size)).2) := by
  rw [cut, if_pos ⟨positive, long⟩]

/-- A message that goes on is cut as before, and then from its last block on. -/
theorem cut_append {size : Nat} (positive : 0 < size) (message more : List α) :
    cut size (message ++ more) =
      ((cut size message).1 ++ (cut size ((cut size message).2 ++ more)).1, (cut size ((cut size message).2 ++ more)).2) := by
  by_cases long : size < message.length
  · have shorter : (message.drop size).length < message.length := by
      rw [List.length_drop]
      omega
    have longer : size < (message ++ more).length := by
      rw [List.length_append]
      omega
    rw [cut_long positive long, cut_long positive longer, List.take_append_of_le_length (Nat.le_of_lt long),
      List.drop_append_of_le_length (Nat.le_of_lt long), cut_append positive (message.drop size) more, List.cons_append]
  · rw [cut_short (Nat.le_of_not_lt long), List.nil_append]
termination_by message.length

/-- What has been made of the blocks, and what is kept back. -/
def absorbed (size : Nat) (absorb : σ → List α → σ) (start : σ) (message : List α) : σ × List α :=
  ((cut size message).1.foldl absorb start, (cut size message).2)

theorem absorbed_append {size : Nat} (positive : 0 < size) (absorb : σ → List α → σ) (start : σ) (message more : List α) :
    absorbed size absorb start (message ++ more) =
      absorbed size absorb (absorbed size absorb start message).1 ((absorbed size absorb start message).2 ++ more) := by
  unfold absorbed
  rw [cut_append positive, List.foldl_append]

theorem absorbed_short {size : Nat} (absorb : σ → List α → σ) (start : σ) {message : List α} (short : message.length ≤ size) :
    absorbed size absorb start message = (start, message) := by
  unfold absorbed
  rw [cut_short short]
  rfl

theorem absorbed_long {size : Nat} (positive : 0 < size) (absorb : σ → List α → σ) (start : σ) {block rest : List α}
    (exact : block.length = size) (some : rest ≠ []) :
    absorbed size absorb start (block ++ rest) = absorbed size absorb (absorb start block) rest := by
  have long : size < (block ++ rest).length := by
    rw [List.length_append, exact]
    exact Nat.lt_add_of_pos_right (List.length_pos_iff.mpr some)
  unfold absorbed
  rw [cut_long positive long, ← exact, List.take_left, List.drop_left, List.foldl_cons]

end Hiya.Library
