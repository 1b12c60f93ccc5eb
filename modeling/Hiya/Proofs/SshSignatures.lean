import Mathlib.Data.Nat.Bitwise
import Hiya.Library.Der
import Hiya.Proofs.SshEnrollment
import Hiya.Proofs.CredentialStore
import Hiya.Ssh.Signing

/-! A signature between the authenticator and the middleware: what one encodes is read back
by every strict reader, and by the loose one at the other end. -/

namespace Hiya.Fido2
open Library

structure Stripped (bytes body : Bytes) : Prop where
  nonempty : body ≠ []
  short : body.length ≤ bytes.length
  shortest : 1 < body.length → body.headD 0 ≠ 0
  value : beNat body = beNat bytes

private theorem stripZeros_stripped (count : Nat) (bytes : Bytes) (length : bytes.length = count + 1) :
    Stripped bytes (stripZeros count bytes) := by
  induction count generalizing bytes with
  | zero =>
    unfold stripZeros
    refine ⟨List.ne_nil_of_length_eq_add_one length, Nat.le_refl _, fun long => ?_, rfl⟩
    omega
  | succ count ih =>
    cases bytes with
    | nil => cases length
    | cons first rest =>
      by_cases zero : first = 0
      · subst zero
        have later := ih rest (Nat.succ.inj length)
        change Stripped (0 :: rest) (stripZeros count rest)
        exact ⟨later.nonempty, Nat.le_succ_of_le later.short, later.shortest, later.value⟩
      · have kept : stripZeros (count + 1) (first :: rest) = first :: rest := by
          unfold stripZeros
          split
          next heq => exact absurd (List.cons.inj heq).1 zero
          · rfl
        rw [kept]
        exact ⟨List.cons_ne_nil _ _, Nat.le_refl _, fun _ => zero, rfl⟩

private theorem highBit_iff (byte : UInt8) : byte &&& 0x80 ≠ 0 ↔ 128 ≤ byte.toNat := by
  have small := byte.toNat_lt
  have masked : (byte &&& 0x80).toNat = (byte.toNat.testBit 7).toNat * 128 := by
    rw [UInt8.toNat_and]
    exact Nat.and_two_pow byte.toNat 7
  rw [ne_eq, ← UInt8.toNat_inj, masked, Nat.testBit_eq_decide_div_mod_eq]
  change ¬ (decide (byte.toNat / 128 % 2 = 1)).toNat * 128 = 0 ↔ _
  by_cases high : byte.toNat / 128 % 2 = 1
  · rw [decide_eq_true high, Bool.toNat_true]
    omega
  · rw [decide_eq_false high, Bool.toNat_false]
    omega

def derContents (bytes : Bytes) : Bytes :=
  let body := stripZeros 31 bytes
  if body.headD 0 &&& 0x80 ≠ 0 then 0 :: body else body

private theorem derInteger_eq (bytes : Bytes) : derInteger bytes = Der.element Der.tagInteger (derContents bytes) := rfl

private theorem derContents_length {bytes : Bytes} (length : bytes.length = 32) : (derContents bytes).length ≤ 33 := by
  have stripped := (stripZeros_stripped 31 bytes length).short
  unfold derContents
  dsimp only
  split
  · rw [List.length_cons]
    omega
  · omega

private theorem derContents_natural {bytes : Bytes} (length : bytes.length = 32) : Der.IsNatural (derContents bytes) := by
  have stripped := stripZeros_stripped 31 bytes length
  unfold derContents
  dsimp only
  split
  next high =>
    rw [highBit_iff] at high
    refine ⟨List.cons_ne_nil _ _, Nat.zero_lt_succ _, fun _ _ => ?_⟩
    obtain ⟨first, rest, shape⟩ := List.exists_cons_of_ne_nil stripped.nonempty
    rw [shape] at high ⊢
    exact high
  next low =>
    rw [highBit_iff, Nat.not_le] at low
    exact ⟨stripped.nonempty, low, fun long zero => absurd zero (stripped.shortest long)⟩

private theorem beNat_derContents {bytes : Bytes} (length : bytes.length = 32) : beNat (derContents bytes) = beNat bytes := by
  have stripped := stripZeros_stripped 31 bytes length
  unfold derContents
  dsimp only
  split
  · rw [Der.beNat_zero_cons, stripped.value]
  · exact stripped.value

/-- Neither the long form of the length nor the limit is ever reached. -/
theorem sequence_short (inner : Bytes) (short : inner.length ≤ 70) :
    (let whole :=
        if inner.length < 128 then [0x30, UInt8.ofNat inner.length] ++ inner
        else [0x30, 0x81, UInt8.ofNat inner.length] ++ inner
      if whole.length > 72 then none else some whole) = some (Der.element Der.tagSequence inner) := by
  dsimp only
  rw [if_pos (show inner.length < 128 by omega), if_neg]
  · rfl
  · rw [List.length_append]
    exact Nat.not_lt.mpr (Nat.add_le_add_left short 2)

section
variable (signature : Buf 64)

/-- The two numbers of a raw signature. -/
def sigR : Bytes := (sliceAt signature.bytes 0 32).bytes

def sigS : Bytes := (sliceAt signature.bytes 32 32).bytes

private theorem sigR_append (r s : Buf 32) : sigR (r.append s) = r.bytes :=
  congrArg Buf.bytes (sliceAt_middle [] s.bytes r rfl)

private theorem sigS_append (r s : Buf 32) : sigS (r.append s) = s.bytes := by
  have last := sliceAt_middle r.bytes [] s (Buf.length_bytes r)
  rw [List.append_nil] at last
  exact congrArg Buf.bytes last

/-- The encoding of a signature always fits and takes the short forms. -/
theorem ecdsaSigToDer_eq : ecdsaSigToDer signature =
    some (Der.element Der.tagSequence (derInteger (sigR signature) ++ derInteger (sigS signature))) := by
  have first := derContents_length (Buf.length_bytes (sliceAt signature.bytes 0 32))
  have second := derContents_length (Buf.length_bytes (sliceAt signature.bytes 32 32))
  have inner : (derInteger (sigR signature) ++ derInteger (sigS signature)).length ≤ 70 := by
    rw [derInteger_eq, derInteger_eq]
    simp only [Der.element, sigR, sigS, List.length_append, List.length_cons, List.length_nil]
    omega
  exact sequence_short _ inner

end

end Hiya.Fido2

namespace Hiya.Ssh
open Library Fido2

/-- A number as the middleware hands it on: its bytes, from the first that is not zero. -/
structure Numeral (bytes : Bytes) (number : Nat) : Prop where
  leading : bytes.headD 0 ≠ 0
  value : beNat bytes = number

private theorem derNumber_element {contents : Bytes} (short : contents.length < 128) (some? : contents ≠ []) (rest : Bytes) :
    derNumber (Der.element Der.tagInteger contents ++ rest) =
      (some (if contents.headD 1 = 0 then contents.drop 1 else contents), rest) := by
  have length : (UInt8.ofNat contents.length).toNat = contents.length := by
    rw [UInt8.toNat_ofNat']
    omega
  have fits : 0 < contents.length ∧ contents.length ≤ (contents ++ rest).length := by
    rw [List.length_append]
    exact ⟨List.length_pos_iff.mpr some?, Nat.le_add_right _ _⟩
  change derNumber (0x02 :: UInt8.ofNat contents.length :: (contents ++ rest)) = _
  rw [derNumber_tagged, length, if_pos fits, List.take_left, List.drop_left]

/-- A number that is not zero comes back without the zero that kept it positive. -/
theorem derNumber_derInteger {bytes : Bytes} (length : bytes.length = 32) (positive : beNat bytes ≠ 0) (rest : Bytes) :
    ∃ number, derNumber (derInteger bytes ++ rest) = (some number, rest) ∧ Numeral number (beNat bytes) := by
  have stripped := stripZeros_stripped 31 bytes length
  have short := derContents_length length
  have leading : (stripZeros 31 bytes).headD 0 ≠ 0 := by
    intro zero
    obtain ⟨first, rest, shape⟩ := List.exists_cons_of_ne_nil stripped.nonempty
    have shortest := stripped.shortest
    have value := stripped.value
    rw [shape] at zero shortest value
    cases rest with
    | nil =>
      cases (show first = 0 from zero)
      exact positive value.symm
    | cons second rest => exact shortest (by simp) zero
  refine ⟨stripZeros 31 bytes, ?_, leading, stripped.value⟩
  rw [derInteger_eq, derNumber_element (by omega) (derContents_natural length).nonempty]
  obtain ⟨first, back, shape⟩ := List.exists_cons_of_ne_nil stripped.nonempty
  rw [shape] at leading
  unfold derContents
  dsimp only
  rw [shape]
  split
  · rfl
  · exact congrArg (fun number => (some number, rest)) (if_neg leading)

private theorem derNumbers_element {r s : Bytes} (first : r.length = 32) (second : s.length = 32) (positive : beNat r ≠ 0)
    (other : beNat s ≠ 0) :
    ∃ one two, derNumbers (Der.element Der.tagSequence (derInteger r ++ derInteger s)) = (some one, some two) ∧
      Numeral one (beNat r) ∧ Numeral two (beNat s) := by
  obtain ⟨one, ahead, left⟩ := derNumber_derInteger first positive (derInteger s)
  obtain ⟨two, behind, right⟩ := derNumber_derInteger second other []
  have sizes : 4 ≤ (derInteger r ++ derInteger s).length ∧ (derInteger r ++ derInteger s).length ≤ 70 := by
    have low := derContents_length first
    have high := derContents_length second
    rw [derInteger_eq, derInteger_eq]
    simp only [Der.element, List.length_append, List.length_cons, List.length_nil]
    omega
  have length : (UInt8.ofNat (derInteger r ++ derInteger s).length).toNat = (derInteger r ++ derInteger s).length := by
    rw [UInt8.toNat_ofNat']
    omega
  refine ⟨one, two, ?_, left, right⟩
  change derNumbers (0x30 :: UInt8.ofNat (derInteger r ++ derInteger s).length :: (derInteger r ++ derInteger s)) = _
  rw [List.append_nil] at behind
  rw [derNumbers_sequence _ sizes.1, length, List.take_length, ahead]
  dsimp only
  rw [behind]

theorem Numeral.nonempty {bytes : Bytes} {number : Nat} (numeral : Numeral bytes number) : bytes ≠ [] := by
  intro empty
  exact numeral.leading (by rw [empty]; rfl)

private theorem readSignature_numbers (memory : SignMemory) (response : SignResponse) {signature : Bytes}
    (some? : signature ≠ [])
    {r s : Option Bytes} (read : derNumbers signature = (r, s)) : response.readSignature memory skEcdsa signature =
      { response with sigR := r.bind (dupBytes memory.r), sigS := s.bind (dupBytes memory.s) } := by
  have numbers : signatureNumbers skEcdsa signature = (r, s) := read
  unfold SignResponse.readSignature
  rw [if_neg some?, numbers]

/-- The encoding of two 32-byte numbers is strict DER of at most 72 bytes for exactly these
numbers, and the middleware takes both out again unless one of them is zero. -/
theorem signature_numbers_read_back (r s : Buf 32) :
    ∃ der, ecdsaSigToDer (r.append s) = some der ∧ der.length ≤ 72 ∧
      Der.integerPair der = some ((beNat r.bytes : Int), (beNat s.bytes : Int)) ∧
      (beNat r.bytes ≠ 0 → beNat s.bytes ≠ 0 → ∀ (memory : SignMemory) (response : SignResponse),
        memory.r = true → memory.s = true →
          ∃ one two, (response.readSignature memory skEcdsa der).sigR = some one ∧
            (response.readSignature memory skEcdsa der).sigS = some two ∧
            Numeral one (beNat r.bytes) ∧ Numeral two (beNat s.bytes)) := by
  have lengthR := Buf.length_bytes r
  have lengthS := Buf.length_bytes s
  have made := ecdsaSigToDer_eq (r.append s)
  rw [sigR_append, sigS_append] at made
  have short := ecdsaSigToDer_short made
  refine ⟨_, made, short, ?_, ?_⟩
  · have low := derContents_length lengthR
    have high := derContents_length lengthS
    rw [derInteger_eq, derInteger_eq,
      Der.integerPair_element (derContents_natural lengthR) (derContents_natural lengthS) (by omega),
      beNat_derContents lengthR, beNat_derContents lengthS]
  · intro positive other memory response storesR storesS
    obtain ⟨one, two, read, first, second⟩ := derNumbers_element lengthR lengthS positive other
    have kept := readSignature_numbers memory response (Der.element_ne_nil _ _) read
    refine ⟨one, two, ?_, ?_, first, second⟩
    · rw [kept, storesR]
      exact dupBytes_allocated first.nonempty
    · rw [kept, storesS]
      exact dupBytes_allocated second.nonempty

end Hiya.Ssh
