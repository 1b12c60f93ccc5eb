import Hiya.Proofs.PasswordRules
import Mathlib.Data.List.GetD

/-! Which passwords the generator can return. It draws from the charset until the validator
is content, writes required characters over what it has drawn, and validates once more. So
the rules of the validator hold of every result, and any other rule where it follows from
those. -/

namespace Hiya.Pm
open Library

theorem buildCharsetString_roomy {memory : Bool} {policy : PasswordPolicy} {charset : Bytes}
    (built : buildCharsetString memory policy = .ok charset) : buildCharsetString true policy = .ok charset := by
  cases memory with
  | true => exact built
  | false =>
    unfold buildCharsetString at built
    cases custom : policy.customCharset with
    | none =>
      rw [custom] at built
      cases built
    | some text =>
      rw [custom] at built
      cases built

theorem removeChars_subset (removed charset : Bytes) : removeChars removed charset ⊆ charset := by
  unfold removeChars
  induction removed generalizing charset with
  | nil => exact List.Subset.refl charset
  | cons char rest ih => exact List.Subset.trans (ih (charset.erase char)) List.erase_subset

theorem class_real (kind : CharClass) : 0 ∉ kind.chars := by
  cases kind with
  | lowercase => decide
  | uppercase => decide
  | digits => decide
  | symbols => decide

theorem enabled_real (policy : PasswordPolicy) : 0 ∉ CharClass.all.flatMap fun kind => if policy.enables kind then
    kind.chars else [] := by
  intro zero
  obtain ⟨kind, -, inside⟩ := List.mem_flatMap.mp zero
  by_cases on : policy.enables kind = true
  · rw [if_pos on] at inside
    exact class_real kind inside
  · rw [if_neg on] at inside
    cases inside

/-- Without a charset of its own a policy draws from the classes that it enables. -/
theorem charset_enabled {memory : Bool} {policy : PasswordPolicy} {charset : Bytes}
    (built : buildCharsetString memory policy = .ok charset)
    (plain : policy.customCharset = none) : charset ⊆ CharClass.all.flatMap fun kind => if policy.enables kind then
    kind.chars else [] := by
  unfold buildCharsetString at built
  rw [plain] at built
  cases memory with
  | false => cases built
  | true =>
    let enabled := CharClass.all.flatMap fun kind => if policy.enables kind then kind.chars else []
    let clear := if policy.excludeAmbiguous then removeChars charsetAmbiguous enabled else enabled
    let left := policy.excludedChars.elim clear fun set => removeChars set.bytes clear
    change (if left = [] then Except.error PmError.invalidParam else .ok left) = .ok charset at built
    have fewer : clear ⊆ enabled := by
      unfold clear
      split
      · exact removeChars_subset charsetAmbiguous enabled
      · exact List.Subset.refl enabled
    have fewest : left ⊆ clear := by
      unfold left
      cases policy.excludedChars with
      | none => exact List.Subset.refl clear
      | some set => exact removeChars_subset set.bytes clear
    split at built
    · cases built
    · obtain rfl := Except.ok.inj built
      exact List.Subset.trans fewest fewer

theorem charset_real {memory : Bool} {policy : PasswordPolicy} {charset : Bytes}
    (built : buildCharsetString memory policy = .ok charset) :
    0 ∉ charset := by
  cases custom : policy.customCharset with
  | some text =>
    unfold buildCharsetString at built
    rw [custom] at built
    cases memory with
    | true =>
      cases built
      exact text.clean
    | false => cases built
  | none => exact fun zero => enabled_real policy (charset_enabled built custom zero)

/-- A byte reaches the first 256 characters of a charset. -/
theorem drawn_iff {charset drawn : Bytes} (some : charset ≠ []) :
    (∃ bytes : Bytes, drawn = bytes.map (pickChar charset)) ↔ ∀ char ∈ drawn, char ∈ charset.take 256 := by
  have positive := List.length_pos_iff.mpr some
  constructor
  · intro picked char inside
    obtain ⟨bytes, rfl⟩ := picked
    obtain ⟨byte, -, rfl⟩ := List.mem_map.mp inside
    have place := Nat.mod_lt byte.toNat positive
    have early : byte.toNat % charset.length < 256 := Nat.lt_of_le_of_lt (Nat.mod_le _ _) byte.toNat_lt
    unfold pickChar
    rw [List.getD_eq_getElem _ _ place]
    exact List.mem_take_iff_getElem.mpr ⟨_, by omega, rfl⟩
  · intro spelled
    induction drawn with
    | nil => exact ⟨[], rfl⟩
    | cons char rest ih =>
      obtain ⟨bytes, rfl⟩ := ih fun char inside => spelled char (List.mem_cons_of_mem _ inside)
      obtain ⟨place, bound, found⟩ := List.mem_take_iff_getElem.mp (spelled char List.mem_cons_self)
      refine ⟨UInt8.ofNat place :: bytes, ?_⟩
      have byte : (UInt8.ofNat place).toNat = place := UInt8.toNat_ofNat_of_lt' (by change place < 256; omega)
      rw [List.map_cons]
      unfold pickChar
      rw [byte, Nat.mod_eq_of_lt (by omega), List.getD_eq_getElem _ _ (by omega), found]

namespace PasswordPolicy

/-- A password of characters the generator can draw for the policy. -/
def Spells (policy : PasswordPolicy) (drawn : Bytes) : Prop :=
  (1 ≤ policy.length.toNat ∧ policy.length.toNat ≤ 128) ∧
    ∃ charset, buildCharsetString true policy = .ok charset ∧ ∀ char ∈ drawn, char ∈ charset.take 256

/-- The required characters there is room for. -/
def wanted (policy : PasswordPolicy) : Bytes := (policy.requiredChars.elim [] CStr.bytes).take policy.length.toNat

/-- Required characters written over a password, each where its byte says, up to the last byte. -/
def overwritten (policy : PasswordPolicy) (drawn places : Bytes) : Bytes :=
    (places.zip policy.wanted).foldl (replaceAt policy) drawn

variable {policy : PasswordPolicy} {drawn places password : Bytes}

theorem overwritten_mem {char : UInt8} (inside : char ∈ policy.overwritten drawn places) : char ∈ drawn ∨
    char ∈ policy.wanted := by
  have general (writes : List (UInt8 × UInt8)) (known : ∀ write ∈ writes, write.2 ∈ policy.wanted) (start : Bytes)
      (inside : char ∈ writes.foldl (replaceAt policy) start) : char ∈ start ∨ char ∈ policy.wanted := by
    induction writes generalizing start with
    | nil => exact .inl inside
    | cons write rest ih =>
      cases ih (fun write later => known write (List.mem_cons_of_mem _ later)) _ inside with
      | inr required => exact .inr required
      | inl here =>
        cases List.mem_or_eq_of_mem_set here with
        | inl before => exact .inl before
        | inr same => exact .inr (same ▸ known write List.mem_cons_self)
  exact general _ (fun write member => (List.of_mem_zip member).2) drawn inside

theorem wanted_real : 0 ∉ policy.wanted := by
  intro zero
  have inside := List.mem_of_mem_take zero
  cases required : policy.requiredChars with
  | none =>
    rw [required] at inside
    cases inside
  | some text =>
    rw [required] at inside
    exact text.clean inside

theorem Spells.real (spelled : policy.Spells drawn) : 0 ∉ drawn := by
  obtain ⟨-, charset, built, known⟩ := spelled
  exact fun zero => charset_real built (List.mem_of_mem_take (known 0 zero))

theorem Spells.overwritten_real (spelled : policy.Spells drawn) : 0 ∉ policy.overwritten drawn places := by
  intro zero
  cases overwritten_mem zero with
  | inl before => exact spelled.real before
  | inr required => exact wanted_real required

theorem addRequired_ok {source last : Draws UInt8} (done : addRequired policy drawn source = (.ok password, last)) :
    ∃ places, password = policy.overwritten drawn places := by
  unfold addRequired at done
  unfold overwritten wanted
  cases required : policy.requiredChars with
  | none =>
    rw [required] at done
    cases done
    exact ⟨[], rfl⟩
  | some chars =>
    rw [required] at done
    exact Proc.drawTill_eq_ok done

theorem addRequired_places (policy : PasswordPolicy) (drawn places : Bytes) :
    ∃ last, addRequired policy drawn (places.map some ++ₛ Stream'.const none) = (.ok (policy.overwritten drawn places),
    last) := by
  unfold addRequired overwritten wanted
  cases policy.requiredChars with
  | none => exact ⟨_, by rw [Option.elim_none, List.take_nil, List.zip_nil_right]; rfl⟩
  | some chars => exact Proc.drawTill_answers places _ drawn

/-- What the generator returns was drawn, written over and validated, before and after. -/
theorem generate_ok {memory : GeneratorMemory} {source last : Draws UInt8}
    (done : passwordGenerate memory policy source = (.ok password, last)) :
    ∃ drawn places, policy.Spells drawn ∧ policy.accepts drawn = true ∧ password = policy.overwritten drawn places ∧
    policy.accepts password = true := by
  unfold passwordGenerate at done
  split at done
  · cases done
  next sized =>
    have bounds : 1 ≤ policy.length.toNat ∧ policy.length.toNat ≤ 128 := by
      obtain ⟨small, large⟩ := not_or.mp sized
      exact ⟨UInt32.le_iff_toNat_le.mp (UInt32.not_lt.mp small), UInt32.le_iff_toNat_le.mp (UInt32.not_lt.mp large)⟩
    cases built : buildCharsetString memory.charset policy with
    | error problem =>
      rw [built] at done
      cases done
    | ok charset =>
      rw [built] at done
      dsimp only at done
      split at done
      · cases done
      next filled =>
        split at done
        · cases done
        · obtain ⟨result, middle, tried, ending⟩ := Proc.bind_eq_ok.mp done
          split at ending
          next good =>
            cases ending
            have empty : policy.accepts [] = false := by
              rw [Bool.eq_false_iff]
              intro none
              have length := (accepts_iff.mp none).1
              rw [List.length_nil] at length
              omega
            obtain ⟨drawn, before, after, drew, accepted, added⟩ := Proc.retry_eq_ok tried good empty
            obtain ⟨bytes, -, shape, -⟩ := Proc.draws_eq_ok.mp drew
            obtain ⟨places, written⟩ := addRequired_ok added
            have known := (drawn_iff (fun none => filled (congrArg List.length none))).mp ⟨bytes, shape⟩
            exact ⟨drawn, places, ⟨bounds, charset, buildCharsetString_roomy built, known⟩, accepted, written, good⟩
          · cases ending

/-- Every such password comes out of some source. -/
theorem generate_source (spelled : policy.Spells drawn) (first : policy.accepts drawn = true)
    (second : policy.accepts (policy.overwritten drawn places) = true) :
    ∃ source last, passwordGenerate ⟨true, true⟩ policy source = (.ok (policy.overwritten drawn places), last) := by
  obtain ⟨⟨least, most⟩, charset, built, known⟩ := spelled
  have long := (accepts_iff.mp first).1
  have filled : charset ≠ [] := by
    intro none
    obtain ⟨char, rest, rfl⟩ := List.exists_cons_of_length_pos (long ▸ least)
    cases (none ▸ known char List.mem_cons_self : char ∈ [].take 256)
  obtain ⟨bytes, shape⟩ := (drawn_iff filled).mpr known
  obtain ⟨last, added⟩ := addRequired_places policy drawn places
  let rest : Draws UInt8 := places.map some ++ₛ Stream'.const none
  refine ⟨bytes.map some ++ₛ rest, last, ?_⟩
  have drew : drawPassword charset policy.length.toNat (bytes.map some ++ₛ rest) = (.ok drawn, rest) := by
    refine Proc.draws_eq_ok.mpr ⟨bytes, ?_, shape, rfl⟩
    rw [← long, shape, List.length_map]
  have tried : Proc.retry policy.accepts (drawPassword charset policy.length.toNat) (addRequired policy) maxAttempts []
    (bytes.map some ++ₛ rest) =
      (.ok (policy.overwritten drawn places), last) := (Proc.retry_first drew first).trans added
  have sized : ¬ (policy.length < 1 ∨ policy.length > 128) :=
    not_or.mpr ⟨UInt32.not_lt.mpr (UInt32.le_iff_toNat_le.mpr least), UInt32.not_lt.mpr (UInt32.le_iff_toNat_le.mpr most)⟩
  unfold passwordGenerate
  rw [if_neg sized, built]
  dsimp only
  rw [if_neg fun none => filled (List.eq_nil_of_length_eq_zero none), if_neg (show ¬ (!true) = true from Bool.false_ne_true),
    Proc.bind_of_ok tried, if_pos second]
  rfl

/-- The rules of the validator hold of every result, and the check agrees. -/
theorem generated_checked {memory : GeneratorMemory} {source last : Draws UInt8}
    (done : passwordGenerate memory policy source = (.ok password, last)) :
    policy.Checked password ∧ ∀ room, passwordCheckPolicy room password policy = (.ok (), none) := by
  obtain ⟨drawn, places, spelled, -, rfl, good⟩ := generate_ok done
  exact ⟨(accepts_iff_checked spelled.overwritten_real).mp good, fun room => check_of_accepts room good⟩

structure Lettered (policy : PasswordPolicy) : Prop where
  plain : policy.customCharset = none
  digits : policy.enables .digits = false
  symbols : policy.enables .symbols = false

/-- No rule is set that nothing looks at, unless the length, the charset or the minimums imply it. -/
structure Covered (policy : PasswordPolicy) : Prop where
  required : ∀ chars, policy.requiredChars = some chars → chars.bytes = []
  unsequential : policy.noSequential = true → policy.length < 3
  allCharsets : policy.requireAllCharsets = true → policy.customCharset = none → ∀ kind, policy.enables kind = true →
    policy.minimum kind ≠ 0
  runs : 0 < policy.maxConsecutive → policy.length ≤ policy.maxConsecutive
  start : policy.startWithLetter = true → policy.Lettered
  finish : policy.endWithLetter = true → policy.Lettered

theorem Lettered.letters (lettered : policy.Lettered) (spelled : policy.Spells drawn) : ∀ char ∈ drawn, isLetter char := by
  obtain ⟨-, charset, built, known⟩ := spelled
  intro char inside
  obtain ⟨kind, -, member⟩ := List.mem_flatMap.mp
    (charset_enabled built lettered.plain (List.mem_of_mem_take (known char inside)))
  cases kind with
  | lowercase => exact .inl (by split at member; exacts [member, absurd member List.not_mem_nil])
  | uppercase => exact .inr (by split at member; exacts [member, absurd member List.not_mem_nil])
  | digits =>
    rw [lettered.digits] at member
    cases member
  | symbols =>
    rw [lettered.symbols] at member
    cases member

/-- Without required characters nothing is written over. -/
theorem Covered.overwritten_eq (covered : policy.Covered) : policy.overwritten drawn places = drawn := by
  have none : policy.wanted = [] := by
    unfold wanted
    cases required : policy.requiredChars with
    | none => exact List.take_nil
    | some chars =>
      rw [Option.elim_some, covered.required chars required]
      exact List.take_nil
  unfold overwritten
  rw [none, List.zip_nil_right]
  rfl

theorem Covered.unchecked (covered : policy.Covered) (spelled : policy.Spells password) (checked : policy.Checked password) :
    policy.Unchecked password := by
  have some : password ≠ [] := by
    rintro rfl
    exact absurd (checked.length ▸ spelled.1.1) (by decide)
  exact {
    required := fun chars set char inside => by
      rw [covered.required chars set] at inside
      cases inside
    unsequential := fun on => by
      have short : password.length < 3 := by
        rw [checked.length]
        exact UInt32.lt_iff_toNat_lt.mp (covered.unsequential on)
      exact if_pos short
    allCharsets := fun on plain kind enabled => by
      have nonzero : (policy.minimum kind).toNat ≠ 0 :=
        fun zero => covered.allCharsets on plain kind enabled (UInt32.toNat_inj.mp zero)
      have counted : 0 < password.countP (· ∈ kind.chars) :=
        Nat.lt_of_lt_of_le (Nat.pos_of_ne_zero nonzero) (checked.minimums kind)
      obtain ⟨char, inside, member⟩ := List.countP_pos_iff.mp counted
      exact ⟨char, inside, of_decide_eq_true member⟩
    runs := fun on kind run inside _ => by
      refine inside.length_le.trans ?_
      rw [checked.length]
      exact UInt32.le_iff_toNat_le.mp (covered.runs on)
    start := fun on =>
      ⟨password.head some, List.head?_eq_some_head some, (covered.start on).letters spelled _ (List.head_mem some)⟩
    finish := fun on =>
      ⟨password.getLast some, List.getLast?_eq_some_getLast some,
        (covered.finish on).letters spelled _ (List.getLast_mem some)⟩ }

end PasswordPolicy

/-- The basic preset without its limit on runs. -/
def policyPlain : PasswordPolicy := { policyBasic with maxConsecutive := 0 }

theorem policyPlain_covered : policyPlain.Covered where
  required := nofun
  unsequential := nofun
  allCharsets _ _ kind enabled := by
    cases kind with
    | lowercase => decide
    | uppercase => decide
    | digits => decide
    | symbols => cases enabled
  runs := by decide
  start := nofun
  finish := nofun

def lowercaseDraws : Draws UInt8 := [0, 1, 2, 3, 4, 5, 6, 7, 8, 9, 25, 50].map some ++ₛ Stream'.const none

/-- The strictest of the presets forbids sequences, and a source that answers with the
places of `abcd` first gives them. -/
def sequentialDraws : Draws UInt8 :=
  [0, 1, 2, 3, 25, 26, 27, 28, 49, 50, 51, 52, 57, 58, 59, 60, 4, 5, 6, 7, 8, 9, 10, 11, 12, 13, 14, 15, 16, 17, 18,
    19].map some ++ₛ Stream'.const none

/-- Two characters of a class in a row are the most that the basic preset allows. -/
example : (passwordGenerate ⟨true, true⟩ policyBasic lowercaseDraws).1 = .ok (literal "abcdefghijA3") := by decide +kernel

end Hiya.Pm
