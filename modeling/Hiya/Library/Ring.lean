import Mathlib.Data.List.FinRange
import Mathlib.Logic.Function.Basic
import Mathlib.Tactic.Common

/-! Rings that keep the last values that were written to them. A place is written after the
other, and a count says how many of them are in use. -/

namespace Hiya.Library

variable {α : Type} {size : Nat}

/-- The values written since the ring was emptied, the last one at the end. -/
inductive Ring : (Fin size → α) → Nat → Nat → List α → Prop
  | empty (slots : Fin size → α) (next : Nat) (start : next % size = 0) : Ring slots 0 next []
  | push (value : α) (slot : Fin size) (after : Nat) (place : slot.val = next % size)
    (moved : after % size = (next + 1) % size)
      (filled : more = min (count + 1) size) (ring : Ring slots count next history) :
      Ring (Function.update slots slot value) more after (history ++ [value])

/-- How many of the values in use have a property. -/
def ringCount (slots : Fin size → α) (count : Nat) (p : α → Bool) : Nat :=
  (List.finRange size).countP fun slot => slot.val < count ∧ p (slots slot)

theorem countP_below (total count : Nat) : (List.range total).countP (· < count) = min total count := by
  induction total with
  | zero => simp
  | succ total ih =>
    rw [List.range_succ, List.countP_append, ih, List.countP_singleton]
    by_cases below : total < count
    · rw [if_pos (decide_eq_true below)]
      omega
    · rw [if_neg (by simpa using below)]
      omega

theorem ringCount_le (slots : Fin size → α) (count : Nat) (p : α → Bool) : ringCount slots count p ≤ count := by
  have all : (List.finRange size).countP (fun slot => decide (slot.val < count)) = min size count := by
    rw [← countP_below size count, ← List.map_coe_finRange_eq_range, List.countP_map]
    rfl
  refine Nat.le_trans (List.countP_mono_left fun slot _ used => ?_) (all ▸ Nat.min_le_right size count)
  exact decide_eq_true (of_decide_eq_true used).1

/-- Where every value in use has the property, all of them are counted. -/
theorem ringCount_all {slots : Fin size → α} {count : Nat} {p : α → Bool} (small : count ≤ size)
    (all : ∀ slot : Fin size, slot.val < count → p (slots slot) = true) : ringCount slots count p = count := by
  have same : ringCount slots count p = (List.finRange size).countP fun slot => decide (slot.val < count) := by
    refine List.countP_congr fun slot _ => ?_
    rw [decide_eq_true_eq, decide_eq_true_eq]
    exact ⟨And.left, fun used => ⟨used, all slot used⟩⟩
  have total : (List.finRange size).countP (fun slot => decide (slot.val < count)) = min size count := by
    rw [← countP_below size count, ← List.map_coe_finRange_eq_range, List.countP_map]
    rfl
  rw [same, total, Nat.min_eq_right small]

theorem countP_switch {items : List α} {first second : α → Bool} {changed : α} (nodup : items.Nodup)
    (member : changed ∈ items)
    (same : ∀ item ∈ items, item ≠ changed → first item = second item) :
    items.countP first + (second changed).toNat = items.countP second + (first changed).toNat := by
  induction items with
  | nil => cases member
  | cons item items ih =>
    obtain ⟨fresh, nodup⟩ := List.nodup_cons.mp nodup
    rw [List.countP_cons, List.countP_cons]
    by_cases here : changed = item
    · subst here
      have rest : items.countP first = items.countP second := by
        refine List.countP_congr fun other inside => ?_
        rw [same other (List.mem_cons_of_mem _ inside) fun is => fresh (is ▸ inside)]
      rw [rest]
      cases first changed <;> cases second changed <;> simp
    · have there : changed ∈ items := (List.mem_cons.mp member).resolve_left here
      have rest := ih nodup there fun other inside => same other (List.mem_cons_of_mem _ inside)
      rw [same item List.mem_cons_self (Ne.symm here)]
      omega

/-- Where a property stays once a value has it, the last values have it as often as there is room. -/
theorem countP_last {items : List α} {p : α → Bool} (stays : items.Pairwise fun first second => p first = true →
    p second = true) (room : Nat) :
    (items.drop (items.length - room)).countP p = min (items.countP p) room := by
  induction items with
  | nil => simp
  | cons item items ih =>
    obtain ⟨here, there⟩ := List.pairwise_cons.mp stays
    by_cases start : p item = true
    · have all : ∀ other ∈ item :: items, p other = true :=
        List.forall_mem_cons.mpr ⟨start, fun other member => here other member start⟩
      rw [List.countP_eq_length.mpr all, List.countP_eq_length.mpr fun other member => all other
        (List.mem_of_mem_drop member), List.length_drop]
      omega
    · rw [List.countP_cons_of_neg start]
      have most : items.countP p ≤ items.length := List.countP_le_length
      by_cases whole : items.length < room
      · rw [List.length_cons, Nat.sub_eq_zero_of_le whole, List.drop_zero, List.countP_cons_of_neg start]
        omega
      · rw [List.length_cons, show items.length + 1 - room = items.length - room + 1 by omega, List.drop_succ_cons]
        exact ih there

namespace Ring
variable {slots : Fin size → α} {count next : Nat} {history : List α}

theorem count_eq (ring : Ring slots count next history) : count = min history.length size := by
  induction ring with
  | empty => simp
  | push _ _ _ _ _ filled _ ih =>
    rw [List.length_append, List.length_singleton, filled, ih]
    omega

theorem next_eq (ring : Ring slots count next history) : next % size = history.length % size := by
  induction ring with
  | empty _ _ start => simpa using start
  | push _ _ _ _ moved _ _ ih => rw [List.length_append, List.length_singleton, moved, Nat.add_mod, ih, ← Nat.add_mod]

/-- One of the last values is in the place its number has in the ring. -/
theorem kept (ring : Ring slots count next history) {number : Nat} (inside : number < history.length)
    (recent : history.length ≤ number + size)
    {slot : Fin size} (place : slot.val = number % size) : history[number]? = some (slots slot) := by
  induction ring generalizing number with
  | empty => exact absurd inside (Nat.not_lt_zero _)
  | @push next more count slots history value written after spot moved filled ring ih =>
    rw [List.length_append, List.length_singleton] at inside recent
    have positive : 0 < size := Nat.lt_of_le_of_lt (Nat.zero_le _) slot.isLt
    obtain earlier | rfl := Nat.lt_succ_iff_lt_or_eq.mp inside
    · have apart : slot ≠ written := by
        rintro rfl
        rw [place, ring.next_eq] at spot
        have cycle : (number + (history.length - number)) % size = number % size :=
          by rw [Nat.add_sub_cancel' (Nat.le_of_lt earlier), spot]
        have divides : size ∣ history.length - number := by
          have := Nat.sub_mod_eq_zero_of_mod_eq spot.symm
          exact Nat.dvd_of_mod_eq_zero this
        have long := Nat.le_of_dvd (by omega) divides
        omega
      rw [List.getElem?_append_left earlier, Function.update_of_ne apart]
      exact ih earlier (by omega) place
    · have same : slot = written := Fin.ext (by rw [place, spot, ring.next_eq])
      rw [same, Function.update_self, List.getElem?_append_right (Nat.le_refl _), Nat.sub_self]
      rfl

/-- The values a push leaves among the last ones: all, or all but the oldest of them. -/
theorem drop_push (value : α) : (history ++ [value]).drop ((history ++ [value]).length - size) =
    if history.length < size then history ++ [value] else history.drop (history.length + 1 - size) ++
    (if 0 < size then [value] else []) := by
  rw [List.length_append, List.length_singleton]
  split
  · rw [Nat.sub_eq_zero_of_le (by omega), List.drop_zero]
  · by_cases positive : 0 < size
    · rw [if_pos positive, List.drop_append_of_le_length (by omega)]
    · rw [if_neg positive, List.append_nil, List.drop_eq_nil_of_le, List.drop_eq_nil_of_le (by omega)]
      rw [List.length_append, List.length_singleton]
      omega

theorem toNat_eq (bit : Bool) : (if bit = true then 1 else 0) = bit.toNat := by cases bit <;> rfl

/-- The count of a ring is the count of the last values. -/
theorem ringCount_eq (ring : Ring slots count next history) (p : α → Bool) :
    ringCount slots count p = (history.drop (history.length - size)).countP p := by
  induction ring with
  | empty slots =>
    unfold ringCount
    simp
  | @push next more count slots history value written after spot moved filled ring ih =>
    have positive : 0 < size := Nat.lt_of_le_of_lt (Nat.zero_le _) written.isLt
    have total := ring.count_eq
    have place : written.val = history.length % size := spot.trans ring.next_eq
    have others : ∀ slot ∈ List.finRange size, slot ≠ written →
        decide (slot.val < more ∧ p (Function.update slots written value slot) = true) = decide (slot.val < count ∧
          p (slots slot) = true) := by
      intro slot _ apart
      have used : slot.val < more ↔ slot.val < count := by
        have differ : slot.val ≠ written.val := fun is => apart (Fin.ext is)
        by_cases short : history.length < size
        · rw [Nat.mod_eq_of_lt short] at place
          omega
        · have inside := slot.isLt
          omega
      rw [Function.update_of_ne apart]
      exact decide_eq_decide.mpr (and_congr_left' used)
    have switched := countP_switch (List.nodup_finRange size) (List.mem_finRange written) others
    have here : decide (written.val < more ∧ p (Function.update slots written value written) = true) = p value := by
      have inside := written.isLt
      have used : written.val < more := by
        by_cases short : history.length < size
        · rw [Nat.mod_eq_of_lt short] at place
          omega
        · omega
      rw [Function.update_self]
      simp [used]
    rw [here] at switched
    rw [drop_push, if_pos positive]
    unfold ringCount at ih ⊢
    by_cases short : history.length < size
    · have free : decide (written.val < count ∧ p (slots written) = true) = false := by
        rw [Nat.mod_eq_of_lt short] at place
        exact decide_eq_false fun used => by omega
      rw [Nat.sub_eq_zero_of_le (Nat.le_of_lt short), List.drop_zero] at ih
      rw [if_pos short, List.countP_append, List.countP_singleton]
      rw [free, ih, Bool.toNat_false, Nat.add_zero] at switched
      rw [switched, toNat_eq]
    · have full : history.length - size + size = history.length := Nat.sub_add_cancel (Nat.le_of_not_lt short)
      have oldest : history[history.length - size]? = some (slots written) :=
        ring.kept (by omega) (by omega) (by rw [place, ← full, Nat.add_mod_right, full])
      obtain ⟨there, value_eq⟩ := List.getElem?_eq_some_iff.mp oldest
      have last : decide (written.val < count ∧ p (slots written) = true) = p (slots written) := by
        have inside := written.isLt
        have used : written.val < count := by omega
        simp [used]
      rw [List.drop_eq_getElem_cons there, List.countP_cons, value_eq] at ih
      rw [last, ih] at switched
      rw [if_neg short, show history.length + 1 - size = history.length - size +
        1 by omega, List.countP_append, List.countP_singleton]
      rw [toNat_eq] at switched ⊢
      omega

end Ring

end Hiya.Library
