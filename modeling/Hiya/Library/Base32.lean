import Mathlib.Algebra.Group.Nat.Defs
import Mathlib.Data.List.Basic
import Mathlib.Tactic.Common
import Hiya.Library.Text

/-! Base 32 as RFC 4648 has it: the bits of all bytes in a row, five of them a letter, zeros
where the last letter lacks some, and padding up to a multiple of eight letters. -/

namespace Hiya.Library.Base32

/-- The lowest bits of a number, the highest of them first. -/
def bits : Nat → Nat → List Bool
  | 0, _ => []
  | width + 1, value => value.testBit width :: bits width value

def ofBits (word : List Bool) : Nat := word.foldl (fun value bit => 2 * value + bit.toNat) 0

/-- Groups of five, the last one filled with zeros. -/
def fives : List Bool → List (List Bool)
  | [] => []
  | [a] => [[a, false, false, false, false]]
  | [a, b] => [[a, b, false, false, false]]
  | [a, b, c] => [[a, b, c, false, false]]
  | [a, b, c, d] => [[a, b, c, d, false]]
  | a :: b :: c :: d :: e :: rest => [a, b, c, d, e] :: fives rest

def alphabet : Bytes := literal "ABCDEFGHIJKLMNOPQRSTUVWXYZ234567"

def pad : UInt8 := 61

def letter (value : Nat) : UInt8 := alphabet.getD value pad

def byteBits (bytes : Bytes) : List Bool := bytes.flatMap fun byte => bits 8 byte.toNat

/-- The numbers of the letters that spell the bytes. -/
def values (bytes : Bytes) : List Nat := (fives (byteBits bytes)).map ofBits

def encode (bytes : Bytes) : Bytes :=
  (values bytes).map letter ++ List.replicate ((8 - (values bytes).length % 8) % 8) pad

example : encode (literal "fooba") = literal "MZXW6YTB" ∧ encode (literal "f") = literal "MY======" := by decide

/-- A text with its letters in any case, its padding left out or in place, and characters of a
kind put in anywhere. -/
inductive Dressed (filler : UInt8 → Prop) : Bytes → Bytes → Prop
  | nil : Dressed filler [] []
  | letter (same : toLower byte = toLower char) (more : Dressed filler plain text) : Dressed filler (char :: plain)
    (byte :: text)
  | unpadded (more : Dressed filler plain text) : Dressed filler (pad :: plain) text
  | filled (extra : filler byte) (more : Dressed filler plain text) : Dressed filler plain (byte :: text)

theorem Dressed.same {filler : UInt8 → Prop} (text : Bytes) : Dressed filler text text := by
  induction text with
  | nil => exact .nil
  | cons byte text more => exact .letter rfl more

@[simp] theorem length_bits (width value : Nat) : (bits width value).length = width := by
  induction width with
  | zero => rfl
  | succ width ih => rw [bits, List.length_cons, ih]

theorem bits_congr {width first second : Nat} (same : ∀ place < width, first.testBit place = second.testBit place) :
    bits width first = bits width second := by
  induction width with
  | zero => rfl
  | succ width ih =>
    rw [bits, bits, same width (Nat.lt_succ_self width), ih fun place inside => same place (Nat.lt_succ_of_lt inside)]

theorem bits_split (high low value : Nat) : bits (high + low) value = bits high (value >>> low) ++ bits low value := by
  induction high with
  | zero => rw [Nat.zero_add, bits, List.nil_append]
  | succ high ih => rw [Nat.succ_add, bits, bits, ih, Nat.testBit_shiftRight, Nat.add_comm low high, List.cons_append]

theorem bits_mod (width value : Nat) : bits width (value % 2 ^ width) = bits width value :=
  bits_congr fun place inside => by rw [Nat.testBit_mod_two_pow, decide_eq_true inside, Bool.true_and]

theorem bits_inj {width first second : Nat} (small : first < 2 ^ width) (tiny : second < 2 ^ width)
    (same : bits width first = bits width second) :
    first = second := by
  have places : ∀ place < width, first.testBit place = second.testBit place := by
    clear small tiny
    induction width with
    | zero => exact fun _ none => absurd none (Nat.not_lt_zero _)
    | succ width ih =>
      obtain ⟨here, there⟩ := List.cons.inj same
      intro place inside
      obtain below | rfl := Nat.lt_succ_iff_lt_or_eq.mp inside
      · exact ih there place below
      · exact here
  refine Nat.eq_of_testBit_eq fun place => ?_
  by_cases inside : place < width
  · exact places place inside
  · have wide : 2 ^ width ≤ 2 ^ place := Nat.pow_le_pow_right (by decide) (Nat.le_of_not_lt inside)
    rw [Nat.testBit_lt_two_pow (Nat.lt_of_lt_of_le small wide), Nat.testBit_lt_two_pow (Nat.lt_of_lt_of_le tiny wide)]

@[simp] theorem byteBits_append (front back : Bytes) : byteBits (front ++ back) = byteBits front ++ byteBits back :=
    List.flatMap_append

theorem length_byteBits (bytes : Bytes) : (byteBits bytes).length = 8 * bytes.length := by
  induction bytes with
  | nil => rfl
  | cons byte bytes ih =>
    rw [byteBits, List.flatMap_cons, List.length_append, length_bits, ← byteBits, ih, List.length_cons]
    omega

theorem byteBits_inj {first second : Bytes} (same : byteBits first = byteBits second) : first = second := by
  induction first generalizing second with
  | nil =>
    have length := congrArg List.length same
    rw [length_byteBits, length_byteBits] at length
    rw [List.length_nil] at length
    exact (List.eq_nil_of_length_eq_zero (by omega)).symm
  | cons byte first ih =>
    cases second with
    | nil =>
      have length := congrArg List.length same
      rw [length_byteBits, length_byteBits] at length
      simp at length
    | cons other second =>
      obtain ⟨here, there⟩ := List.append_inj same (by rw [length_bits, length_bits])
      rw [UInt8.toNat_inj.mp (bits_inj byte.toNat_lt other.toNat_lt here), ih there]

theorem bits_ofBits : ∀ a b c d e : Bool, bits 5 (ofBits [a, b, c, d, e]) = [a, b, c, d, e] ∧
    ofBits [a, b, c, d, e] < 32 := by decide

/-- The letters hold the bits, and fewer than five zeros behind them. -/
theorem fives_bits (word : List Bool) : (∀ value ∈ (fives word).map ofBits, value < 32) ∧
    ∃ extra < 5, ((fives word).map ofBits).flatMap (bits 5) = word ++ List.replicate extra false := by
  fun_induction fives word with
  | case1 => exact ⟨List.forall_mem_nil _, 0, by decide, rfl⟩
  | case2 a =>
    exact ⟨List.forall_mem_singleton.mpr (bits_ofBits _ _ _ _ _).2, 4,
      by decide, by simpa using (bits_ofBits a false false false false).1⟩
  | case3 a b =>
    exact ⟨List.forall_mem_singleton.mpr (bits_ofBits _ _ _ _ _).2, 3,
      by decide, by simpa using (bits_ofBits a b false false false).1⟩
  | case4 a b c =>
    exact ⟨List.forall_mem_singleton.mpr (bits_ofBits _ _ _ _ _).2, 2,
      by decide, by simpa using (bits_ofBits a b c false false).1⟩
  | case5 a b c d =>
    exact ⟨List.forall_mem_singleton.mpr (bits_ofBits _ _ _ _ _).2, 1,
      by decide, by simpa using (bits_ofBits a b c d false).1⟩
  | case6 a b c d e rest ih =>
    obtain ⟨small, extra, few, whole⟩ := ih
    refine ⟨List.forall_mem_cons.mpr ⟨(bits_ofBits a b c d e).2, small⟩, extra, few, ?_⟩
    rw [List.map_cons, List.flatMap_cons, (bits_ofBits a b c d e).1, whole]
    rfl

end Hiya.Library.Base32
