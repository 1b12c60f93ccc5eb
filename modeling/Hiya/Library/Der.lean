import Mathlib.Algebra.Group.Int.Defs
import Hiya.Library.Bytes

/-! Reading ASN.1 integers under the distinguished encoding rules, which leave one form to
each value: the shortest length and the shortest contents. -/

namespace Hiya.Library.Der

def tagInteger : UInt8 := 0x02
def tagSequence : UInt8 := 0x30

/-- A definite length. The long form is for what the short one has no room for. -/
def takeLength : Bytes → Option (Nat × Bytes)
  | [] => none
  | first :: rest =>
    if first.toNat < 128 then some (first.toNat, rest)
    else
      let count := first.toNat - 128
      let length := beNat (rest.take count)
      if rest.length < count ∨ rest.headD 0 = 0 ∨ length < 128 then none else some (length, rest.drop count)

/-- The contents of the element in front, and what follows it. -/
def takeElement (tag : UInt8) : Bytes → Option (Bytes × Bytes)
  | [] => none
  | first :: rest =>
    if first ≠ tag then none
    else (takeLength rest).bind fun (length, rest) =>
      if rest.length < length then none else some (rest.take length, rest.drop length)

def twosComplement (bytes : Bytes) : Int :=
  if (bytes.headD 0).toNat < 128 then beNat bytes else beNat bytes - 256 ^ bytes.length

/-- The contents of an integer: never empty, and the first nine bits are not all alike. -/
def integerValue (contents : Bytes) : Option Int :=
  let first := (contents.headD 0).toNat
  let second := (contents.getD 1 0).toNat
  if contents = [] ∨ 1 < contents.length ∧ (first = 0 ∧ second < 128 ∨ first = 255 ∧ 128 ≤ second) then none
  else some (twosComplement contents)

def takeInteger (bytes : Bytes) : Option (Int × Bytes) :=
  (takeElement tagInteger bytes).bind fun (contents, rest) => (integerValue contents).map fun value => (value, rest)

/-- A sequence of two integers, and nothing after it. -/
def integerPair (bytes : Bytes) : Option (Int × Int) :=
  (takeElement tagSequence bytes).bind fun (contents, after) =>
    (takeInteger contents).bind fun (first, rest) =>
      (takeInteger rest).bind fun (second, rest) => if rest = [] ∧ after = [] then some (first, second) else none

def element (tag : UInt8) (contents : Bytes) : Bytes := [tag, UInt8.ofNat contents.length] ++ contents

theorem element_ne_nil (tag : UInt8) (contents : Bytes) : element tag contents ≠ [] := List.cons_ne_nil _ _

theorem takeElement_element (tag : UInt8) {contents : Bytes} (short : contents.length < 128) (rest : Bytes) :
    takeElement tag (element tag contents ++ rest) = some (contents, rest) := by
  have length : (UInt8.ofNat contents.length).toNat = contents.length := by
    rw [UInt8.toNat_ofNat']
    omega
  change takeElement tag (tag :: UInt8.ofNat contents.length :: (contents ++ rest)) = _
  unfold takeElement takeLength
  simp only [ne_eq, not_true_eq_false, if_false, length, short, if_true, Option.bind_some, List.length_append]
  rw [if_neg (by omega), List.take_left, List.drop_left]

/-- Contents that stand for a natural number as they are. -/
structure IsNatural (contents : Bytes) : Prop where
  nonempty : contents ≠ []
  positive : (contents.headD 0).toNat < 128
  shortest : 1 < contents.length → contents.headD 0 = 0 → 128 ≤ (contents.getD 1 0).toNat

theorem IsNatural.value {contents : Bytes} (natural : IsNatural contents) :
    integerValue contents = some (beNat contents : Int) := by
  have positive := natural.positive
  unfold integerValue twosComplement
  dsimp only
  rw [if_neg, if_pos positive]
  rintro (empty | ⟨long, ⟨zero, low⟩ | ⟨ones, -⟩⟩)
  · exact natural.nonempty empty
  · have high := natural.shortest long (UInt8.toNat_inj.mp zero)
    omega
  · omega

theorem takeInteger_element {contents : Bytes} (natural : IsNatural contents) (short : contents.length < 128) (rest : Bytes) :
    takeInteger (element tagInteger contents ++ rest) = some ((beNat contents : Int), rest) := by
  unfold takeInteger
  rw [takeElement_element tagInteger short, Option.bind_some]
  dsimp only
  rw [natural.value]
  rfl

theorem integerPair_element {first second : Bytes} (one : IsNatural first) (two : IsNatural second)
    (short : first.length + second.length < 124) :
    integerPair (element tagSequence (element tagInteger first ++ element tagInteger second)) =
      some ((beNat first : Int), (beNat second : Int)) := by
  have whole : (element tagInteger first ++ element tagInteger second).length < 128 := by
    simp only [element, List.length_append, List.length_cons, List.length_nil]
    omega
  have outer := takeElement_element tagSequence whole []
  have last := takeInteger_element two (by omega) []
  rw [List.append_nil] at outer last
  unfold integerPair
  rw [outer, Option.bind_some]
  dsimp only
  rw [takeInteger_element one (by omega), Option.bind_some]
  dsimp only
  rw [last, Option.bind_some]
  exact if_pos ⟨rfl, rfl⟩

/-- A zero in front changes the length of a number, not the number. -/
theorem beNat_zero_cons (bytes : Bytes) : beNat (0 :: bytes) = beNat bytes := rfl

end Hiya.Library.Der
