import Mathlib.Tactic.Common

/-! Words in which every token announces how many more are to follow it, as the operators
do in prefix notation. A beginning of such a word leaves a number of tokens due, and that
number is settled by the beginning alone when no token begins another. -/

namespace Hiya.Library
variable {α : Type}

/-- `Leaves token due word left`: where `due` are to come, the word brings them in order
and `left` are still to come after it. -/
inductive Leaves (token : List α → Nat → Prop) : Nat → List α → Nat → Prop
  | nil (due : Nat) : Leaves token due [] due
  | cons {head rest : List α} {announced due left : Nat} (first : token head announced)
    (others : Leaves token (due + announced) rest left) : Leaves token (due + 1) (head ++ rest) left

/-- A token is not empty, and no other begins as it does. -/
structure Parted (token : List α → Nat → Prop) : Prop where
  nonempty : ∀ {head announced}, token head announced → head ≠ []
  unique : ∀ {head other rest more announced expected}, token head announced → token other expected →
    head ++ rest = other ++ more → head = other ∧ announced = expected

def Stuck (token : List α → Nat → Prop) (word : List α) : Prop := ∀ head announced rest, token head announced →
    word ≠ head ++ rest

/-- The word breaks off while something is due. -/
def Halts (token : List α → Nat → Prop) (due : Nat) (word : List α) : Prop :=
  ∃ whole broken left, word = whole ++ broken ∧ Leaves token due whole (left + 1) ∧ Stuck token broken

variable {token : List α → Nat → Prop} {due left : Nat} {word rest : List α}

namespace Leaves

protected theorem single {head : List α} {announced : Nat} (first : token head announced) :
    Leaves token (due + 1) head (due + announced) := by
  have one := Leaves.cons first (.nil (due + announced))
  rwa [List.append_nil] at one

protected theorem append {middle : Nat} (first : Leaves token due word middle) (second : Leaves token middle rest left) :
    Leaves token due (word ++ rest) left := by
  induction first with
  | nil due => exact second
  | cons token others ih =>
    rw [List.append_assoc]
    exact .cons token (ih second)

protected theorem frame (leaves : Leaves token due word left) (more : Nat) :
    Leaves token (due + more) word (left + more) := by
  induction leaves with
  | nil due => exact .nil _
  | cons first others ih =>
    rw [Nat.add_right_comm] at ih ⊢
    exact .cons first ih

/-- What follows a beginning is a word of its own. -/
theorem suffix {total : Nat} (parted : Parted token) (first : Leaves token due word left)
    (whole : Leaves token due (word ++ rest) total) :
    Leaves token left rest total := by
  induction first with
  | nil due => exact whole
  | @cons head tail announced due left one others ih =>
    rw [List.append_assoc] at whole
    generalize joined : head ++ (tail ++ rest) = whole' at whole
    cases whole with
    | nil =>
      have empty := (List.append_eq_nil_iff.mp joined).1
      exact absurd empty (parted.nonempty one)
    | cons other others =>
      obtain ⟨rfl, rfl⟩ := parted.unique one other joined
      rw [← List.append_cancel_left joined] at others
      exact ih others

theorem unique {other : Nat} (parted : Parted token) (first : Leaves token due word left)
    (second : Leaves token due word other) :
    left = other := by
  rw [← List.append_nil word] at second
  have rest := first.suffix parted second
  generalize empty : [] = tail at rest
  cases rest with
  | nil => rfl
  | cons one others => exact absurd (List.append_eq_nil_iff.mp empty.symm).1 (parted.nonempty one)

/-- Nothing is complete with nothing due but the empty word. -/
theorem of_zero (leaves : Leaves token 0 word left) : word = [] := by
  generalize due? : 0 = due at leaves
  cases leaves with
  | nil => rfl
  | cons first others => cases due?

/-- Two complete words with which one word begins are the same. -/
theorem same_front {first second more : List α} (parted : Parted token) (one : Leaves token due first 0)
    (two : Leaves token due second 0)
    (same : first ++ rest = second ++ more) : first = second ∧ rest = more := by
  rcases List.append_eq_append_iff.mp same with ⟨middle, rfl, rfl⟩ | ⟨middle, rfl, rfl⟩
  · obtain rfl := (one.suffix parted two).of_zero
    exact ⟨(List.append_nil _).symm, List.nil_append _⟩
  · obtain rfl := (two.suffix parted one).of_zero
    exact ⟨List.append_nil _, (List.nil_append _).symm⟩

end Leaves

namespace Halts

protected theorem frame (halts : Halts token due word) (more : Nat) : Halts token (due + more) word := by
  obtain ⟨whole, broken, left, rfl, leaves, stuck⟩ := halts
  refine ⟨whole, broken, left + more, rfl, ?_, stuck⟩
  rw [Nat.add_right_comm]
  exact leaves.frame more

protected theorem after {middle : Nat} (leaves : Leaves token due word middle) (halts : Halts token middle rest) :
    Halts token due (word ++ rest) := by
  obtain ⟨whole, broken, left, rfl, next, stuck⟩ := halts
  exact ⟨word ++ whole, broken, left, (List.append_assoc ..).symm, leaves.append next, stuck⟩

theorem incomplete (parted : Parted token) (halts : Halts token due word) : ¬ Leaves token due word 0 := by
  intro complete
  obtain ⟨whole, broken, left, rfl, leaves, stuck⟩ := halts
  generalize still : left + 1 = due at leaves
  have rest := leaves.suffix parted complete
  cases rest with
  | nil => cases still
  | cons first others => exact stuck _ _ _ first rfl

end Halts

/-- No spelling begins another one, and none begins with the sign at the end. -/
structure Spelling {α β : Type} (spell : α → List β) (stop : β) : Prop where
  parted : ∀ {first second rest more}, spell first ++ rest = spell second ++ more → first = second
  running : ∀ {letter rest more}, spell letter ++ rest ≠ stop :: more

namespace Spelling
variable {α β : Type} {spell : α → List β} {stop : β}

theorem injective (spelling : Spelling spell stop) {first second : List α} {rest more : List β}
    (same : first.flatMap spell ++ stop :: rest = second.flatMap spell ++ stop :: more) : first = second ∧ rest = more := by
  induction first generalizing second with
  | nil =>
    cases second with
    | nil => exact ⟨rfl, (List.cons.inj same).2⟩
    | cons letter others =>
      rw [List.flatMap_cons, List.append_assoc] at same
      exact absurd same.symm spelling.running
  | cons letter others ih =>
    rw [List.flatMap_cons, List.append_assoc] at same
    cases second with
    | nil => exact absurd same spelling.running
    | cons other letters =>
      rw [List.flatMap_cons, List.append_assoc] at same
      obtain rfl := spelling.parted same
      obtain ⟨rfl, behind⟩ := ih (List.append_cancel_left same)
      exact ⟨rfl, behind⟩

/-- It is enough to look at the spellings as they are. -/
theorem of_front (alone : ∀ first second, spell first <+: spell second → first = second)
    (running : ∀ letter, ∃ head tail, spell letter = head :: tail ∧ head ≠ stop) : Spelling spell stop where
  parted {first second rest more} same := by
    have front : spell first <+: spell second ++ more := same ▸ List.prefix_append _ _
    obtain before | behind := List.prefix_or_prefix_of_prefix front (List.prefix_append (spell second) more)
    · exact alone first second before
    · exact (alone second first behind).symm
  running {letter rest more} same := by
    obtain ⟨head, tail, spelled, other⟩ := running letter
    rw [spelled, List.cons_append, List.cons.injEq] at same
    exact other same.1

end Spelling

end Hiya.Library
