import Mathlib.Algebra.Group.Nat.Defs
import Mathlib.Data.List.Basic
import Mathlib.Data.List.TakeWhile
import Hiya.Library.Bytes

/-! Byte arrays as C structures embed them: of a fixed size, of a fixed capacity
with a length beside them, or terminated by a zero byte. -/

namespace Hiya.Library

/-- A byte array of exactly `size` bytes. -/
def Buf (size : Nat) : Type := { bytes : Bytes // bytes.length = size }

namespace Buf
variable {size : Nat}

instance : DecidableEq (Buf size) := inferInstanceAs (DecidableEq { bytes : Bytes // bytes.length = size })

def bytes (buf : Buf size) : Bytes := buf.val

@[simp] theorem length_bytes (buf : Buf size) : buf.bytes.length = size := buf.property

def ofBytes (bytes : Bytes) (exact : bytes.length = size) : Buf size := ⟨bytes, exact⟩

@[simp] theorem bytes_ofBytes (bytes : Bytes) (exact : bytes.length = size) : (ofBytes bytes exact).bytes = bytes :=
  rfl

theorem ext {first second : Buf size} (same : first.bytes = second.bytes) : first = second := Subtype.ext same

def append {first second : Nat} (front : Buf first) (back : Buf second) : Buf (first + second) :=
  ofBytes (front.bytes ++ back.bytes) (by simp)

def zero (size : Nat) : Buf size := ofBytes (List.replicate size 0) List.length_replicate

end Buf

/-- An array of `cap` bytes whose first bytes are in use; the rest is not looked at. -/
structure Blob (cap : Nat) where
  bytes : Bytes
  short : bytes.length ≤ cap
  deriving DecidableEq

namespace Blob
variable {cap : Nat}

def empty (cap : Nat) : Blob cap := ⟨[], Nat.zero_le cap⟩

def ofSlice (cap : Nat) (data : Bytes) : Blob cap := ⟨data.take cap, List.length_take_le cap data⟩

/-- The whole array: the bytes in use and zeros behind them. -/
def padded (blob : Blob cap) : Bytes := blob.bytes ++ List.replicate (cap - blob.bytes.length) 0

@[simp] theorem padded_length (blob : Blob cap) : blob.padded.length = cap := by
  have short := blob.short
  simp only [padded, List.length_append, List.length_replicate]
  omega

theorem ext_bytes {first second : Blob cap} (same : first.bytes = second.bytes) : first = second := by
  cases first
  cases second
  cases same
  rfl

@[simp] theorem ofSlice_bytes (blob : Blob cap) : ofSlice cap blob.bytes = blob :=
  ext_bytes (List.take_of_length_le blob.short)

@[simp] theorem take_padded (blob : Blob cap) : blob.padded.take blob.bytes.length = blob.bytes :=
  List.take_left

end Blob

/-- An array of `cap` bytes that holds a string and its terminator. -/
structure CText (cap : Nat) where
  bytes : Bytes
  clean : 0 ∉ bytes
  short : bytes.length < cap
  deriving DecidableEq

namespace CText
variable {cap : Nat}

theorem nil_clean : 0 ∉ ([] : Bytes) := List.not_mem_nil

def empty (cap : Nat) (room : 0 < cap) : CText cap := ⟨[], nil_clean, room⟩

/-- The string an array holds: what stands before its first zero byte. The last
byte of the array is never part of it. -/
def ofSlice (cap : Nat) (room : 0 < cap) (data : Bytes) : CText cap where
  bytes := (data.take (cap - 1)).takeWhile (· ≠ 0)
  clean := fun member => by simpa using List.mem_takeWhile_imp member
  short := by
    have taken : ((data.take (cap - 1)).takeWhile (· ≠ 0)).length ≤ (data.take (cap - 1)).length :=
      (List.takeWhile_prefix _).length_le
    rw [List.length_take] at taken
    omega

def padded (text : CText cap) : Bytes := text.bytes ++ List.replicate (cap - text.bytes.length) 0

@[simp] theorem padded_length (text : CText cap) : text.padded.length = cap := by
  have short := text.short
  simp only [padded, List.length_append, List.length_replicate]
  omega

theorem ext_bytes {first second : CText cap} (same : first.bytes = second.bytes) : first = second := by
  cases first
  cases second
  cases same
  rfl

/-- Reading an array back gives the string it holds. -/
@[simp] theorem ofSlice_padded (text : CText cap) (room : 0 < cap) : ofSlice cap room text.padded = text := by
  have short := text.short
  have body : ∀ byte ∈ text.bytes, decide (byte ≠ 0) = true := by
    intro byte inside
    rw [decide_eq_true_iff]
    rintro rfl
    exact text.clean inside
  apply ext_bytes
  change ((text.bytes ++ List.replicate (cap - text.bytes.length) 0).take (cap - 1)).takeWhile (· ≠ 0) = text.bytes
  rw [List.take_append, List.take_of_length_le (by omega), List.takeWhile_append_of_pos body, List.take_replicate,
    List.takeWhile_replicate_eq_filter]
  simp

end CText

end Hiya.Library
