import Hiya.Pm.PasswordGen
import Mathlib.Data.List.GetD

/-! What a policy asks of a password, in two halves: what the generator validates, and what
nothing in it looks at. The longest run is in both: the header counts characters of one class,
and the generator those that are the same. -/

namespace Hiya.Pm
open Library

private theorem sameBefore_iff {password : Bytes} {place count : Nat} :
    sameBefore password place count = true ↔ count ≤ place ∧ ∀ back, 1 ≤ back → back ≤ count →
    password.getD (place - back) 0 = password.getD place 0 := by
  unfold sameBefore
  simp only [Bool.and_eq_true, decide_eq_true_eq, List.all_eq_true, List.mem_range'_1]
  constructor
  · intro same
    exact ⟨same.1, fun back first last => same.2 back ⟨first, by omega⟩⟩
  · intro same
    exact ⟨same.1, fun back range => same.2 back range.1 (by omega)⟩

private theorem repeatsAt_eq (password : Bytes) (place : Nat) : repeatsAt password place = sameBefore password place 1 := by
  rw [Bool.eq_iff_iff, sameBefore_iff]
  unfold repeatsAt
  rw [Bool.and_eq_true, decide_eq_true_eq, decide_eq_true_eq]
  constructor
  · intro twice
    refine ⟨twice.1, fun back first last => ?_⟩
    obtain rfl : back = 1 := by omega
    exact twice.2.symm
  · intro same
    exact ⟨same.1, (same.2 1 (Nat.le_refl 1) (Nat.le_refl 1)).symm⟩

/-- A character with so many of the same in front of it ends a run. -/
theorem sameBefore_run {password : Bytes} {count : Nat} :
    (∃ place < password.length, sameBefore password place count = true) ↔
    ∃ char, List.replicate (count + 1) char <:+: password := by
  constructor
  · intro found
    obtain ⟨place, inside, same⟩ := found
    obtain ⟨behind, equal⟩ := sameBefore_iff.mp same
    refine ⟨password.getD place 0, ?_⟩
    have run : (password.drop (place - count)).take (count + 1) = List.replicate (count + 1) (password.getD place 0) := by
      apply List.ext_getElem
      · rw [List.length_take, List.length_drop, List.length_replicate]
        omega
      · intro offset first second
        rw [List.length_replicate] at second
        rw [List.getElem_take, List.getElem_drop, List.getElem_replicate]
        have here : place - count + offset = place - (count - offset) := by omega
        rw [← List.getD_eq_getElem password 0, here]
        by_cases last : offset = count
        · rw [last, Nat.sub_self, Nat.sub_zero]
        · exact equal (count - offset) (by omega) (by omega)
    rw [← run]
    exact ((List.take_prefix _ _).isInfix).trans (List.drop_suffix _ _).isInfix
  · intro found
    obtain ⟨char, front, back, shape⟩ := found
    have reads (place : Nat) (first : front.length ≤ place) (last : place ≤ front.length + count) :
      password.getD place 0 = char := by
      rw [← shape, List.append_assoc, List.getD_append_right _ _ _ _ first,
        List.getD_append _ _ _ _ (by rw [List.length_replicate]; omega),
        List.getD_eq_getElem _ _ (by rw [List.length_replicate]; omega), List.getElem_replicate]
    refine ⟨front.length + count, ?_, sameBefore_iff.mpr ⟨by omega, fun one first last => ?_⟩⟩
    · rw [← shape, List.length_append, List.length_append, List.length_replicate]
      omega
    · rw [reads _ (by omega) (by omega), reads _ (by omega) (by omega)]

private theorem charInSet_iff {char : UInt8} {set : Bytes} (real : char ≠ 0) : charInSet char set = true ↔ char ∈ set := by
  simp [charInSet, real]

private theorem classOf_of_mem {kind : CharClass} {char : UInt8} (inside : char ∈ kind.chars) : classOf char = some kind := by
  have every : kind.chars.all (fun char => classOf char = some kind) = true := by
    cases kind with
    | lowercase => rfl
    | uppercase => rfl
    | digits => rfl
    | symbols => rfl
  exact of_decide_eq_true (List.all_eq_true.mp every char inside)

private theorem classOf_eq_some {char : UInt8} {kind : CharClass} (real : char ≠ 0) : classOf char = some kind ↔
    char ∈ kind.chars := by
  constructor
  · intro found
    exact (charInSet_iff real).mp (List.find?_some (p := fun kind : CharClass => charInSet char kind.chars) found)
  · exact classOf_of_mem

private theorem countOf_toNat {kind : CharClass} {password : Bytes} (short : password.length < UInt32.size)
    (real : 0 ∉ password) :
    (countOf kind password).toNat = password.countP (· ∈ kind.chars) := by
  have fits : password.countP (fun char => classOf char = some kind) < UInt32.size :=
    Nat.lt_of_le_of_lt List.countP_le_length short
  unfold countOf
  rw [UInt32.toNat_ofNat_of_lt' fits]
  apply List.countP_congr
  intro char inside
  have nonzero : char ≠ 0 := fun zero => real (zero ▸ inside)
  rw [decide_eq_true_iff, decide_eq_true_iff, classOf_eq_some nonzero]

def isLetter (char : UInt8) : Prop := char ∈ Audit.lowercase ∨ char ∈ Audit.uppercase

namespace PasswordPolicy

/-- The rules that the validator looks at. -/
structure Checked (policy : PasswordPolicy) (password : Bytes) : Prop where
  length : password.length = policy.length.toNat
  minimums : ∀ kind : CharClass, (policy.minimum kind).toNat ≤ password.countP (· ∈ kind.chars)
  unambiguous : policy.excludeAmbiguous = true → ∀ char ∈ password, char ∉ charsetAmbiguous
  unexcluded : ∀ excluded, policy.excludedChars = some excluded → ∀ char ∈ password, char ∉ excluded.bytes
  unrepeated : policy.noRepeating = true → ∀ char, ¬ [char, char] <:+: password
  identical : 0 < policy.maxConsecutive → ∀ char, ¬ List.replicate (policy.maxConsecutive.toNat + 1) char <:+: password

/-- The rules that a policy can set and no function reads. A charset of its own takes the
place of the classes that are enabled. -/
structure Unchecked (policy : PasswordPolicy) (password : Bytes) : Prop where
  required : ∀ chars, policy.requiredChars = some chars → ∀ char ∈ chars.bytes, char ∈ password
  unsequential : policy.noSequential = true → Audit.detectSequentialChars password 3 = false
  allCharsets : policy.requireAllCharsets = true → policy.customCharset = none → ∀ kind, policy.enables kind = true →
    ∃ char ∈ password, char ∈ kind.chars
  runs : 0 < policy.maxConsecutive → ∀ (kind : CharClass) (run : Bytes), run <:+: password →
    (∀ char ∈ run, char ∈ kind.chars) →
    run.length ≤ policy.maxConsecutive.toNat
  start : policy.startWithLetter = true → ∃ char, password.head? = some char ∧ isLetter char
  finish : policy.endWithLetter = true → ∃ char, password.getLast? = some char ∧ isLetter char

variable {policy : PasswordPolicy} {password : Bytes}

private theorem refusesAt_eq_false {place : Nat} :
    refusesAt policy password place = false ↔
      (policy.excludeAmbiguous = true → charInSet (password.getD place 0) charsetAmbiguous = false) ∧
        (∀ excluded, policy.excludedChars = some excluded → charInSet (password.getD place 0) excluded.bytes = false) ∧
        (policy.noRepeating = true → sameBefore password place 1 = false) ∧
        (0 < policy.maxConsecutive → sameBefore password place policy.maxConsecutive.toNat = false) := by
  unfold refusesAt
  rw [repeatsAt_eq]
  cases policy.excludedChars with
  | none => simp [and_assoc]
  | some excluded => simp [and_assoc]

theorem accepts_iff :
    policy.accepts password = true ↔
      password.length = policy.length.toNat ∧ (∀ place < password.length, refusesAt policy password place = false) ∧
        ∀ kind, policy.minimum kind ≤ countOf kind password := by
  have every (p : CharClass → Prop) [DecidablePred p] : CharClass.all.any (fun kind => decide (p kind)) = false ↔
    ∀ kind, ¬ p kind := by
    rw [List.any_eq_false]
    constructor
    · intro none kind
      have member : kind ∈ CharClass.all := by cases kind <;> decide
      simpa using none kind member
    · intro none kind _
      simpa using none kind
  unfold accepts validatePasswordPolicy
  by_cases long : password.length = policy.length.toNat
  · rw [if_neg (not_not_intro long)]
    cases refused : (List.range password.length).any (refusesAt policy password) with
    | true =>
      obtain ⟨place, inside, bad⟩ := List.any_eq_true.mp refused
      rw [if_pos rfl]
      refine iff_of_false (by simp [Except.isOk, Except.toBool]) fun good => ?_
      rw [good.2.1 place (List.mem_range.mp inside)] at bad
      cases bad
    | false =>
      rw [if_neg Bool.false_ne_true]
      have passed : ∀ place < password.length, refusesAt policy password place = false :=
        fun place inside => Bool.eq_false_iff.mpr (List.any_eq_false.mp refused place (List.mem_range.mpr inside))
      cases short : CharClass.all.any fun kind => decide (countOf kind password < policy.minimum kind) with
      | true =>
        rw [if_pos rfl]
        refine iff_of_false (by simp [Except.isOk, Except.toBool]) fun good => ?_
        rw [(every _).mpr fun kind => UInt32.not_lt.mpr (good.2.2 kind)] at short
        cases short
      | false =>
        rw [if_neg Bool.false_ne_true]
        exact iff_of_true rfl ⟨long, passed, fun kind => UInt32.not_lt.mp ((every _).mp short kind)⟩
  · rw [if_pos long]
    exact iff_of_false (by simp [Except.isOk, Except.toBool]) fun good => long good.1

private theorem no_run_iff {count : Nat} :
    (∀ place < password.length, sameBefore password place count = false) ↔
    ∀ char, ¬ List.replicate (count + 1) char <:+: password := by
  rw [← not_exists, ← sameBefore_run]
  simp

private theorem none_in_iff {set : Bytes} (real : 0 ∉ password) :
    (∀ place < password.length, charInSet (password.getD place 0) set = false) ↔ ∀ char ∈ password, char ∉ set := by
  constructor
  · intro outside char inside
    obtain ⟨place, bound, rfl⟩ := List.getElem_of_mem inside
    have missing := outside place bound
    rw [List.getD_eq_getElem _ _ bound] at missing
    intro member
    rw [(charInSet_iff fun zero => real (zero ▸ inside)).mpr member] at missing
    cases missing
  · intro outside place bound
    rw [List.getD_eq_getElem _ _ bound, Bool.eq_false_iff]
    have inside := List.getElem_mem bound
    exact fun member => outside _ inside ((charInSet_iff fun zero => real (zero ▸ inside)).mp member)

/-- The validator enforces its rules, and nothing else. -/
theorem accepts_iff_checked (real : 0 ∉ password) : policy.accepts password = true ↔ policy.Checked password := by
  have counts (long : password.length = policy.length.toNat) (kind : CharClass) :
      policy.minimum kind ≤ countOf kind password ↔ (policy.minimum kind).toNat ≤ password.countP (· ∈ kind.chars) := by
    rw [UInt32.le_iff_toNat_le, countOf_toNat (long ▸ policy.length.toNat_lt) real]
  rw [accepts_iff]
  constructor
  · intro good
    obtain ⟨long, passed, enough⟩ := good
    have told (place : Nat) (inside : place < password.length) := refusesAt_eq_false.mp (passed place inside)
    exact {
      length := long
      minimums := fun kind => (counts long kind).mp (enough kind)
      unambiguous := fun on => (none_in_iff real).mp fun place inside => (told place inside).1 on
      unexcluded := fun excluded on => (none_in_iff real).mp fun place inside => (told place inside).2.1 excluded on
      unrepeated := fun on => no_run_iff.mp fun place inside => (told place inside).2.2.1 on
      identical := fun on => no_run_iff.mp fun place inside => (told place inside).2.2.2 on }
  · intro good
    refine ⟨good.length, fun place inside => refusesAt_eq_false.mpr ⟨fun on => ?_, fun excluded on => ?_, fun on => ?_,
      fun on => ?_⟩,
      fun kind => (counts good.length kind).mpr (good.minimums kind)⟩
    · exact (none_in_iff real).mpr (good.unambiguous on) place inside
    · exact (none_in_iff real).mpr (good.unexcluded excluded on) place inside
    · have none : ∀ char, ¬ List.replicate (1 + 1) char <:+: password := good.unrepeated on
      exact no_run_iff.mpr none place inside
    · exact no_run_iff.mpr (good.identical on) place inside

/-- What the generator accepts the check has nothing to say against. -/
theorem check_of_accepts (memory : Bool) (good : policy.accepts password = true) :
    passwordCheckPolicy memory password policy = (.ok (), none) := by
  obtain ⟨long, passed, enough⟩ := accepts_iff.mp good
  have silent (places : List Nat) (inside : ∀ place ∈ places, place < password.length) :
    places.foldl (errorsAt policy password) [] = [] := by
    induction places with
    | nil => rfl
    | cons place rest ih =>
      obtain ⟨plain, -, single, -⟩ := refusesAt_eq_false.mp (passed place (inside place List.mem_cons_self))
      have here : errorsAt policy password [] place = [] := by
        unfold errorsAt
        rw [repeatsAt_eq]
        cases ambiguous : policy.excludeAmbiguous with
        | true =>
          rw [plain ambiguous]
          cases repeats : policy.noRepeating with
          | true => rw [single repeats]; rfl
          | false => rfl
        | false =>
          cases repeats : policy.noRepeating with
          | true => rw [single repeats]; rfl
          | false => rfl
      rw [List.foldl_cons, here]
      exact ih fun place later => inside place (List.mem_cons_of_mem _ later)
  have full (checks : List (CharClass × String)) :
      checks.foldl (fun errors check => if countOf check.1 password < policy.minimum check.1 then
        appendErr errors (literal check.2) else errors) [] = [] := by
    induction checks with
    | nil => rfl
    | cons check rest ih => rw [List.foldl_cons, if_neg (UInt32.not_lt.mpr (enough check.1)), ih]
  have none : policyErrors policy password = [] := by
    unfold policyErrors
    rw [if_neg (by omega)]
    change tooFew.foldl _ ((List.range password.length).foldl (errorsAt policy password) []) = []
    rw [silent _ fun place inside => List.mem_range.mp inside, full]
  unfold passwordCheckPolicy
  rw [none]
  rfl

end PasswordPolicy

end Hiya.Pm
