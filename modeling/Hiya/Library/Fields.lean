import Hiya.Library.Buf
import Hiya.Library.Bytes

/-! Fields at fixed places of a byte array of fixed size. A place that does not lie in
the array cannot be written down, so a field that was stored is read back, and two
fields that are apart do not see each other. -/

namespace Hiya.Library

namespace Buf
variable {size width other : Nat}

def store (buf : Buf size) (offset : Nat) (field : Buf width) (fits : offset + width ≤ size) : Buf size :=
  ofBytes (buf.bytes.take offset ++ (field.bytes ++ buf.bytes.drop (offset + width))) (by
    simp only [List.length_append, List.length_take, List.length_drop, length_bytes]
    omega)

def field (buf : Buf size) (offset width : Nat) (fits : offset + width ≤ size) : Buf width :=
  ofBytes ((buf.bytes.drop offset).take width) (by
    simp only [List.length_take, List.length_drop, length_bytes]
    omega)

def Apart (offset width place other : Nat) : Prop := offset + width ≤ place ∨ place + other ≤ offset

instance (offset width place other : Nat) : Decidable (Apart offset width place other) := inferInstanceAs (Decidable (_ ∨ _))

theorem ext_getElem {first second : Buf size} (same : ∀ place, place < size → first.bytes[place]? = second.bytes[place]?) :
    first = second := by
  apply ext
  apply List.ext_getElem?
  intro place
  by_cases inside : place < size
  · exact same place inside
  · rw [List.getElem?_eq_none (Nat.le_trans (Nat.le_of_eq first.length_bytes) (Nat.le_of_not_lt inside)),
      List.getElem?_eq_none (Nat.le_trans (Nat.le_of_eq second.length_bytes) (Nat.le_of_not_lt inside))]

theorem getElem?_store (buf : Buf size) (offset : Nat) (field : Buf width) (fits : offset + width ≤ size) (place : Nat) :
    (buf.store offset field fits).bytes[place]? =
      if place < offset then buf.bytes[place]? else if place < offset + width then field.bytes[place - offset]?
      else buf.bytes[place]? := by
  have short : offset ≤ buf.bytes.length := by
    rw [buf.length_bytes]
    omega
  have front : (buf.bytes.take offset).length = offset := List.length_take_of_le short
  change (buf.bytes.take offset ++ (field.bytes ++ buf.bytes.drop (offset + width)))[place]? = _
  by_cases before : place < offset
  · rw [if_pos before, List.getElem?_append_left (Nat.lt_of_lt_of_eq before front.symm), List.getElem?_take_of_lt before]
  · rw [if_neg before, List.getElem?_append_right (Nat.le_trans (Nat.le_of_eq front) (Nat.le_of_not_lt before)), front]
    by_cases inside : place < offset + width
    · rw [if_pos inside, List.getElem?_append_left]
      rw [field.length_bytes]
      omega
    · rw [if_neg inside, List.getElem?_append_right, field.length_bytes, List.getElem?_drop]
      · congr 1
        omega
      · rw [field.length_bytes]
        omega

theorem getElem?_field (buf : Buf size) (offset : Nat) (fits : offset + width ≤ size) {place : Nat} (inside : place < width) :
    (buf.field offset width fits).bytes[place]? = buf.bytes[offset + place]? := by
  change ((buf.bytes.drop offset).take width)[place]? = _
  rw [List.getElem?_take_of_lt inside, List.getElem?_drop]

@[simp] theorem field_store_same (buf : Buf size) (offset : Nat) (field : Buf width) (fits room : offset + width ≤ size) :
    (buf.store offset field fits).field offset width room = field := by
  apply ext_getElem
  intro place inside
  rw [getElem?_field _ _ _ inside, getElem?_store, if_neg (by omega), if_pos (by omega), Nat.add_sub_cancel_left]

theorem field_store_apart (buf : Buf size) {offset place : Nat} (field : Buf other) (fits : place + other ≤ size)
    (room : offset + width ≤ size) (apart : Apart offset width place other) :
    (buf.store place field fits).field offset width room = buf.field offset width room := by
  apply ext_getElem
  intro index inside
  rw [getElem?_field _ _ _ inside, getElem?_field _ _ _ inside, getElem?_store]
  obtain before | behind := apart
  · rw [if_pos (by omega)]
  · rw [if_neg (by omega), if_neg (by omega)]

theorem store_field (buf : Buf size) (offset width : Nat) (fits : offset + width ≤ size) :
    buf.store offset (buf.field offset width fits) fits = buf := by
  apply ext_getElem
  intro place _
  rw [getElem?_store]
  split
  · rfl
  · split
    · rw [getElem?_field _ _ _ (by omega)]
      congr 1
      omega
    · rfl

/-- The later of two fields at one place counts. -/
theorem store_store_same (buf : Buf size) (offset : Nat) (first second : Buf width) (fits room : offset + width ≤ size) :
    (buf.store offset first fits).store offset second room = buf.store offset second room := by
  apply ext_getElem
  intro index _
  rw [getElem?_store, getElem?_store, getElem?_store]
  split
  · rfl
  · split
    · rfl
    · rfl

theorem store_store_apart (buf : Buf size) {offset place : Nat} (first : Buf width) (second : Buf other)
    (fits : offset + width ≤ size) (room : place + other ≤ size) (apart : Apart offset width place other) :
    (buf.store offset first fits).store place second room = (buf.store place second room).store offset first fits := by
  apply ext_getElem
  intro index _
  rw [getElem?_store, getElem?_store, getElem?_store, getElem?_store]
  unfold Apart at apart
  repeat' split
  all_goals first | rfl | omega

def le (width value : Nat) : Buf width := ofBytes (leBytes width value) (leBytes_length width value)

def leValue (buf : Buf width) : Nat := leNat buf.bytes

theorem leValue_le {width value : Nat} (small : value < 256 ^ width) : (le width value).leValue = value := by
  change leNat (leBytes width value) = value
  rw [leNat_leBytes, Nat.mod_eq_of_lt small]

@[simp] theorem le_leValue (buf : Buf width) : le width buf.leValue = buf := by
  apply ext
  change leBytes width (leNat buf.bytes) = buf.bytes
  have exact := leBytes_leNat buf.bytes
  rwa [buf.length_bytes] at exact

theorem leValue_lt (buf : Buf width) : buf.leValue < 256 ^ width := by
  have bound := leNat_lt buf.bytes
  rwa [buf.length_bytes] at bound

def single (byte : UInt8) : Buf 1 := ofBytes [byte] rfl

/-- Two arrays are the same in front of a place. -/
def AgreeTo (upTo : Nat) (first second : Buf size) : Prop := ∀ place, place < upTo →
    first.bytes[place]? = second.bytes[place]?

namespace AgreeTo
variable {first second : Buf size} {upTo : Nat}

theorem start (first second : Buf size) : AgreeTo 0 first second := fun _ inside => absurd inside (Nat.not_lt_zero _)

theorem store (agree : AgreeTo upTo first second) {field : Buf width} {fits : upTo + width ≤ size}
    (same : second.field upTo width fits = field) : AgreeTo (upTo + width) (first.store upTo field fits) second := by
  intro place inside
  rw [getElem?_store]
  split
  next before => exact agree place before
  next after =>
    rw [← same, getElem?_field _ _ _ (by omega)]
    congr 1
    omega

theorem eq (agree : AgreeTo size first second) : first = second := ext_getElem agree

end AgreeTo

end Buf

end Hiya.Library
