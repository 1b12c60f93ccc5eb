import Mathlib.Algebra.Group.Nat.Defs
import Mathlib.Tactic.Common

/-! Fixed-width integers as bytes, in both byte orders. Writing keeps the low
bits, as a C cast does; reading a written value back gives it modulo the width. -/

namespace Hiya.Library

abbrev Bytes := List UInt8

/-- The low `width` bytes of a number, most significant first. -/
def beBytes : Nat → Nat → Bytes
  | 0, _ => []
  | width + 1, value => UInt8.ofNat (value / 256 ^ width) :: beBytes width value

def beNat (bytes : Bytes) : Nat := bytes.foldl (fun acc byte => acc * 256 + byte.toNat) 0

/-- The low `width` bytes of a number, least significant first. -/
def leBytes : Nat → Nat → Bytes
  | 0, _ => []
  | width + 1, value => UInt8.ofNat value :: leBytes width (value / 256)

def leNat : Bytes → Nat
  | [] => 0
  | byte :: rest => byte.toNat + 256 * leNat rest

@[simp] theorem beBytes_length (width value : Nat) : (beBytes width value).length = width := by
  induction width with
  | zero => rfl
  | succ width ih => simp [beBytes, ih]

@[simp] theorem leBytes_length (width value : Nat) : (leBytes width value).length = width := by
  induction width generalizing value with
  | zero => rfl
  | succ width ih => simp [leBytes, ih]

private theorem foldl_beBytes (width value start : Nat) :
    (beBytes width value).foldl (fun acc byte => acc * 256 + byte.toNat) start =
      start * 256 ^ width + value % 256 ^ width := by
  induction width generalizing start with
  | zero => simp [beBytes, Nat.mod_one]
  | succ width ih =>
    have byte : (UInt8.ofNat (value / 256 ^ width)).toNat = value / 256 ^ width % 256 := by simp
    rw [beBytes, List.foldl_cons, ih, byte, Nat.pow_succ, Nat.mod_mul, Nat.add_mul, Nat.mul_assoc,
      Nat.mul_comm 256 (256 ^ width), Nat.mul_comm (value / 256 ^ width % 256)]
    omega

theorem beNat_beBytes (width value : Nat) : beNat (beBytes width value) = value % 256 ^ width := by
  simp [beNat, foldl_beBytes]

theorem beNat_lt (bytes : Bytes) : beNat bytes < 256 ^ bytes.length := by
  have general (start : Nat) : bytes.foldl (fun acc byte => acc * 256 + byte.toNat) start < (start + 1) *
    256 ^ bytes.length := by
    induction bytes generalizing start with
    | nil => simp
    | cons byte rest ih =>
      have small := byte.toNat_lt
      have later := ih (start * 256 + byte.toNat)
      rw [List.foldl_cons, List.length_cons, Nat.pow_succ, Nat.mul_comm (256 ^ rest.length), ← Nat.mul_assoc]
      refine Nat.lt_of_lt_of_le later (Nat.mul_le_mul_right _ ?_)
      omega
  have whole := general 0
  rwa [Nat.zero_add, Nat.one_mul] at whole

theorem leNat_leBytes (width value : Nat) : leNat (leBytes width value) = value % 256 ^ width := by
  induction width generalizing value with
  | zero => simp [leBytes, leNat, Nat.mod_one]
  | succ width ih =>
    have byte : (UInt8.ofNat value).toNat = value % 256 := by simp
    rw [leBytes, leNat, ih, byte, Nat.pow_succ, Nat.mul_comm (256 ^ width) 256, Nat.mod_mul]

theorem leNat_lt (bytes : Bytes) : leNat bytes < 256 ^ bytes.length := by
  induction bytes with
  | nil => decide
  | cons byte rest ih =>
    have small := byte.toNat_lt
    rw [leNat, List.length_cons, Nat.pow_succ]
    omega

theorem leBytes_leNat (bytes : Bytes) : leBytes bytes.length (leNat bytes) = bytes := by
  induction bytes with
  | nil => rfl
  | cons byte rest ih =>
    have small := byte.toNat_lt
    have low : UInt8.ofNat (byte.toNat + 256 * leNat rest) = byte := by
      apply UInt8.toNat_inj.mp
      rw [UInt8.toNat_ofNat']
      omega
    rw [List.length_cons, leBytes, leNat, low, show (byte.toNat + 256 * leNat rest) / 256 = leNat rest by omega, ih]

theorem leBytes_inj {width first second : Nat} (fits : first < 256 ^ width) (room : second < 256 ^ width)
    (same : leBytes width first = leBytes width second) : first = second := by
  have numbers := congrArg leNat same
  rwa [leNat_leBytes, leNat_leBytes, Nat.mod_eq_of_lt fits, Nat.mod_eq_of_lt room] at numbers

end Hiya.Library
