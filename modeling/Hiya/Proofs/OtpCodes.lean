import Hiya.Pm.Otp
import Hiya.Proofs.AuditJson
import Hiya.Library.Grouping
import Hiya.Proofs.BreachCounts
import Hiya.Proofs.PayloadReads

/-! One-time passwords. A shared secret is read back as it was spelled: bits move through a buffer,
and what was read is at every time the bytes that are out and the bits that are left. A code is cut
out of the authentication code of a counter, and one that depends on the time stays the same for a
while. A URI that spells what a code is made from is read as that. -/

namespace Hiya.Pm.Otp
open Library

section
open Library Base32

/-- The bits read so far are in the bytes that are out, and in the low end of the buffer. -/
structure Holds (word : List Bool) (state : Decoding) : Prop where
  few : state.bitsLeft < 8
  whole : word = byteBits state.decoded ++ bits state.bitsLeft state.buffer.toNat

theorem buffer_bits {buffer : UInt64} {value left : Nat} (small : value < 32) (few : left < 8) :
    bits (left + 5) (buffer <<< 5 ||| UInt64.ofNat value).toNat = bits left buffer.toNat ++ bits 5 value := by
  have holds : (UInt64.ofNat value).toNat = value := UInt64.toNat_ofNat_of_lt' (Nat.lt_trans small (by decide))
  have moved : (buffer <<< 5 ||| UInt64.ofNat value).toNat = (buffer.toNat <<< 5 % 2 ^ 64) ||| value := by
    rw [UInt64.toNat_or, UInt64.toNat_shiftLeft, holds]
    rfl
  have above : ∀ place, value.testBit (place + 5) = false := fun place =>
    Nat.testBit_lt_two_pow (Nat.lt_of_lt_of_le small
      (show 2 ^ 5 ≤ 2 ^ (place + 5) from Nat.pow_le_pow_right (by decide) (Nat.le_add_left 5 place)))
  rw [bits_split, moved]
  congr 1
  · refine bits_congr fun place inside => ?_
    rw [Nat.testBit_shiftRight, Nat.testBit_or, Nat.testBit_mod_two_pow, Nat.testBit_shiftLeft, Nat.add_comm 5 place,
      above place, Bool.or_false,
      decide_eq_true (show place + 5 < 64 by omega), decide_eq_true (show place + 5 ≥ 5 by omega), Bool.true_and,
        Bool.true_and, Nat.add_sub_cancel]
  · refine bits_congr fun place inside => ?_
    rw [Nat.testBit_or, Nat.testBit_mod_two_pow, Nat.testBit_shiftLeft, decide_eq_false (show ¬ place ≥ 5 by omega),
      Bool.false_and, Bool.and_false,
      Bool.false_or]

theorem byte_bits {buffer : UInt64} {left : Nat} (few : left < 64) :
    bits 8 (buffer >>> UInt64.ofNat left &&& 0xFF).toUInt8.toNat = bits 8 (buffer.toNat >>> left) := by
  have holds : (UInt64.ofNat left).toNat = left := UInt64.toNat_ofNat_of_lt' (Nat.lt_trans few (by decide))
  have low : (buffer >>> UInt64.ofNat left &&& 0xFF).toUInt8.toNat = buffer.toNat >>> left % 2 ^ 8 := by
    rw [UInt64.toNat_toUInt8, UInt64.toNat_and, UInt64.toNat_shiftRight, holds, Nat.mod_eq_of_lt few]
    have mask : (0xFF : UInt64).toNat = 2 ^ 8 - 1 := rfl
    rw [mask, Nat.and_two_pow_sub_one_eq_mod, Nat.mod_mod]
  rw [low, bits_mod]

section
variable {memory : Nat → Bool} {word : List Bool} {state next : Decoding}

/-- A value only moves the buffer, or a byte comes out. -/
theorem decodeValue_some {value : Nat} (ok : decodeValue memory state value = some next) :
    next.buffer = state.buffer <<< 5 ||| UInt64.ofNat value ∧
      ((state.bitsLeft + 5 < 8 ∧ next.bitsLeft = state.bitsLeft + 5 ∧ next.decoded = state.decoded) ∨
        (8 ≤ state.bitsLeft + 5 ∧ next.bitsLeft = state.bitsLeft + 5 - 8 ∧
          next.decoded = state.decoded ++ [(next.buffer >>> UInt64.ofNat next.bitsLeft &&& 0xFF).toUInt8])) := by
  unfold decodeValue at ok
  dsimp only at ok
  by_cases byte : state.bitsLeft + 5 ≥ 8
  · rw [if_pos byte, Option.bind_eq_bind, Option.bind_eq_some_iff] at ok
    obtain ⟨room, _, ok⟩ := ok
    cases ok
    exact ⟨rfl, Or.inr ⟨byte, rfl, rfl⟩⟩
  · rw [if_neg byte] at ok
    cases ok
    exact ⟨rfl, Or.inl ⟨Nat.lt_of_not_le byte, rfl, rfl⟩⟩

theorem grown_none (stopped : grown memory state = none) : ∃ size, memory size = false := by
  unfold grown at stopped
  split at stopped
  · cases stopped
  · split at stopped
    · cases stopped
    · exact ⟨_, eq_false_of_ne_true ‹_›⟩

theorem decodeValue_none {value : Nat} (stopped : decodeValue memory state value = none) : ∃ size, memory size = false := by
  unfold decodeValue at stopped
  dsimp only at stopped
  split at stopped
  · cases room : grown memory state with
    | none => exact grown_none room
    | some =>
      rw [room] at stopped
      cases stopped
  · cases stopped

theorem decodeValue_holds {value : Nat} (holds : Holds word state) (small : value < 32)
    (ok : decodeValue memory state value = some next) :
    Holds (word ++ bits 5 value) next := by
  obtain ⟨buffer, ⟨short, left, decoded⟩ | ⟨long, left, decoded⟩⟩ := decodeValue_some ok
  · refine ⟨by omega, ?_⟩
    rw [decoded, left, buffer, buffer_bits small holds.few, holds.whole, List.append_assoc]
  · have few := holds.few
    refine ⟨by omega, ?_⟩
    have eight : byteBits [(next.buffer >>> UInt64.ofNat next.bitsLeft &&& 0xFF).toUInt8] =
      bits 8 (next.buffer.toNat >>> next.bitsLeft) := by
      rw [byteBits, List.flatMap_singleton, byte_bits (by omega)]
    have split : state.bitsLeft + 5 = 8 + next.bitsLeft := by omega
    rw [decoded, byteBits_append, eight, holds.whole, List.append_assoc, ← buffer_bits small few, ← buffer, split,
      bits_split, List.append_assoc]

def letterValue (char : UInt8) : Option Nat := alphabet.idxOf? (toUpper char)

/-- The characters that carry bits. -/
def isSymbol (char : UInt8) : Bool := toUpper char ∈ alphabet

def read (text : Bytes) : List Nat := text.filterMap letterValue

theorem length_read (text : Bytes) : (read text).length = text.countP isSymbol := by
  rw [read, List.length_filterMap_eq_countP]
  refine List.countP_congr fun char _ => ?_
  rw [letterValue, isSymbol, List.isSome_idxOf?, decide_eq_true_eq]

theorem letterValue_lt {char : UInt8} {value : Nat} (found : letterValue char = some value) : value < 32 := by
  obtain ⟨inside, _⟩ := List.idxOf?_eq_some_iff.mp found
  exact inside

theorem ignored_cases {char : UInt8} (pass : ignored char = true) : char = 61 ∨ char = 32 ∨ char = 10 ∨ char = 13 :=
    of_decide_eq_true pass

theorem letterValue_ignored {char : UInt8} (pass : ignored (toUpper char) = true) : letterValue char = none := by
  unfold letterValue
  obtain is | is | is | is := ignored_cases pass
  · rw [is]
    rfl
  · rw [is]
    rfl
  · rw [is]
    rfl
  · rw [is]
    rfl

theorem decodeChar_eq (char : UInt8) :
    decodeChar memory state char = if ignored (toUpper char) then some state
    else (letterValue char).bind (decodeValue memory state) := rfl

/-- What a text that is accepted leaves in the buffer and behind it. -/
theorem loop_holds {text : Bytes} (holds : Holds word state) (ok : text.foldlM (decodeChar memory) state = some next) :
    Holds (word ++ (read text).flatMap (bits 5)) next := by
  induction text generalizing word state with
  | nil =>
    cases ok
    simpa [read] using holds
  | cons char text ih =>
    rw [List.foldlM_cons, decodeChar_eq] at ok
    by_cases pass : ignored (toUpper char) = true
    · rw [if_pos pass] at ok
      rw [read, List.filterMap_cons_none (letterValue_ignored pass)]
      exact ih holds ok
    · rw [if_neg pass] at ok
      obtain ⟨moved, ok, rest⟩ := Option.bind_eq_some_iff.mp ok
      obtain ⟨value, found, ok⟩ := Option.bind_eq_some_iff.mp ok
      have more := ih (decodeValue_holds holds (letterValue_lt found) ok) rest
      rw [read, List.filterMap_cons_some found, List.flatMap_cons, ← List.append_assoc]
      exact more

theorem loop_none {text : Bytes} (stopped : text.foldlM (decodeChar memory) state = none) :
    (∃ size, memory size = false) ∨ ∃ char ∈ text, ignored (toUpper char) = false ∧ letterValue char = none := by
  induction text generalizing state with
  | nil => cases stopped
  | cons char text ih =>
    rw [List.foldlM_cons, decodeChar_eq] at stopped
    have later : ∀ {moved}, text.foldlM (decodeChar memory) moved = none →
        (∃ size, memory size = false) ∨ ∃ other ∈ char :: text, ignored (toUpper other) = false ∧
          letterValue other = none := by
      intro moved stopped
      obtain refused | ⟨other, member, strange⟩ := ih stopped
      · exact Or.inl refused
      · exact Or.inr ⟨other, List.mem_cons_of_mem char member, strange⟩
    by_cases pass : ignored (toUpper char) = true
    · rw [if_pos pass] at stopped
      exact later stopped
    · rw [if_neg pass] at stopped
      cases found : letterValue char with
      | none => exact Or.inr ⟨char, List.mem_cons_self, eq_false_of_ne_true pass, found⟩
      | some value =>
        rw [found, Option.bind_some] at stopped
        cases first : decodeValue memory state value with
        | none => exact Or.inl (decodeValue_none first)
        | some moved =>
          rw [first] at stopped
          exact later stopped

theorem toUpper_toLower (char : UInt8) : toUpper (toLower char) = toUpper char := by
  unfold toUpper toLower
  by_cases upper : 65 ≤ char ∧ char ≤ 90
  · rw [if_pos upper]
    simp only [UInt8.le_iff_toNat_le, UInt8.reduceToNat] at upper
    have moved : (char + 32).toNat = char.toNat + 32 := by
      rw [UInt8.toNat_add]
      exact Nat.mod_eq_of_lt (by simp only [UInt8.reduceToNat]; omega)
    rw [if_pos (by simp only [UInt8.le_iff_toNat_le, UInt8.reduceToNat, moved]; omega),
      if_neg (by simp only [UInt8.le_iff_toNat_le, UInt8.reduceToNat]; omega), UInt8.add_sub_cancel]
  · rw [if_neg upper]

theorem toUpper_congr {first second : UInt8} (same : toLower first = toLower second) : toUpper first = toUpper second := by
  rw [← toUpper_toLower first, same, toUpper_toLower]

theorem toUpper_ignored {char : UInt8} (pass : ignored char = true) : ignored (toUpper char) = true := by
  obtain rfl | rfl | rfl | rfl := ignored_cases pass
  · rfl
  · rfl
  · rfl
  · rfl

theorem loop_dressed {plain text : Bytes} (dressed : Dressed (ignored · = true) plain text) :
    plain.foldlM (decodeChar memory) state = text.foldlM (decodeChar memory) state := by
  induction dressed generalizing state with
  | nil => rfl
  | letter same _ more =>
    have step : ∀ {byte char : UInt8}, toLower byte = toLower char →
      decodeChar memory state byte = decodeChar memory state char := by
      intro byte char same
      unfold decodeChar
      rw [toUpper_congr same]
    rw [List.foldlM_cons, List.foldlM_cons, step same]
    exact bind_congr fun _ => more
  | unpadded _ more =>
    rw [List.foldlM_cons, decodeChar_eq, if_pos (by decide)]
    exact more
  | filled extra _ more =>
    rw [List.foldlM_cons, decodeChar_eq, if_pos (toUpper_ignored extra)]
    exact more

end

theorem letter_facts : ∀ value < 32, letterValue (letter value) = some value := by decide

theorem read_letters {values : List Nat} (small : ∀ value ∈ values, value < 32) : read (values.map letter) = values := by
  induction values with
  | nil => rfl
  | cons value values ih =>
    obtain ⟨here, there⟩ := List.forall_mem_cons.mp small
    rw [List.map_cons, read, List.filterMap_cons_some (letter_facts value here), ← read, ih there]

theorem read_encode (bytes : Bytes) : read (encode bytes) = values bytes := by
  have pads : ∀ count, read (List.replicate count pad) = [] := by
    intro count
    refine List.filterMap_eq_nil_iff.mpr fun char member => ?_
    rw [List.eq_of_mem_replicate member]
    rfl
  have letters := read_letters (fives_bits (byteBits bytes)).1
  rw [encode, read, List.filterMap_append, ← read, ← read, pads, List.append_nil]
  exact letters

/-- The bits of all letters are those of the bytes, and the zeros are too few for another byte. -/
theorem decoded_unique {bytes : Bytes} {state : Decoding} (holds : Holds ((values bytes).flatMap (bits 5)) state) :
    state.decoded = bytes := by
  obtain ⟨_, extra, few, whole⟩ := fives_bits (byteBits bytes)
  have split := holds.whole
  rw [values, whole] at split
  have lengths := congrArg List.length split
  have left := holds.few
  simp only [List.length_append, length_byteBits, length_bits, List.length_replicate] at lengths
  exact (byteBits_inj (List.append_inj_left split (by rw [length_byteBits, length_byteBits]; omega))).symm

section
variable {memory : Nat → Bool}

def start (decodedLen : Nat) : Decoding := { buffer := 0, bitsLeft := 0, decodedLen, decoded := [] }

theorem start_holds (decodedLen : Nat) : Holds [] (start decodedLen) := ⟨Nat.succ_pos 7, rfl⟩

theorem base32Decode_some {text : CStr} {bytes : Bytes} (ok : base32Decode memory text = some bytes) :
    ∃ decodedLen state, text.bytes.foldlM (decodeChar memory) (start decodedLen) = some state ∧ state.decoded = bytes := by
  unfold base32Decode at ok
  dsimp only at ok
  split at ok
  · obtain ⟨state, loop, rest⟩ := Option.bind_eq_some_iff.mp ok
    exact ⟨_, state, loop, Option.some.inj rest⟩
  · cases ok

theorem base32Decode_none {text : CStr} (stopped : base32Decode memory text = none) :
    (∃ size, memory size = false) ∨ ∃ decodedLen, text.bytes.foldlM (decodeChar memory) (start decodedLen) = none := by
  unfold base32Decode at stopped
  dsimp only at stopped
  split at stopped
  · cases loop : text.bytes.foldlM (decodeChar memory) (start (text.bytes.length * 5 % (sizeMax + 1) / 8)) with
    | none => exact Or.inr ⟨_, loop⟩
    | some =>
      rw [← start, loop] at stopped
      cases stopped
  · exact Or.inl ⟨_, eq_false_of_ne_true ‹_›⟩

/-- Every letter of an encoding is in the alphabet, or it is padding. -/
theorem encode_known (bytes : Bytes) : ¬ ∃ char ∈ encode bytes, ignored (toUpper char) = false ∧ letterValue char = none := by
  rintro ⟨char, member, plain, strange⟩
  obtain letters | pads := List.mem_append.mp member
  · obtain ⟨value, inside, rfl⟩ := List.mem_map.mp letters
    rw [letter_facts value ((fives_bits (byteBits bytes)).1 value inside)] at strange
    cases strange
  · rw [List.eq_of_mem_replicate pads] at plain
    exact absurd plain (by decide)

/-- However the encoding is spelled, the bytes come back, unless memory is refused. -/
theorem decoded_spelling {bytes : Bytes} {text : CStr} (dressed : Dressed (ignored · = true) (encode bytes) text.bytes) :
    base32Decode memory text = some bytes ∨ (base32Decode memory text = none ∧ ∃ size, memory size = false) := by
  cases result : base32Decode memory text with
  | none =>
    refine Or.inr ⟨rfl, ?_⟩
    obtain refused | ⟨decodedLen, loop⟩ := base32Decode_none result
    · exact refused
    · rw [← loop_dressed dressed] at loop
      exact (loop_none loop).resolve_right (encode_known bytes)
  | some other =>
    refine Or.inl (congrArg some ?_)
    obtain ⟨decodedLen, state, loop, rfl⟩ := base32Decode_some result
    rw [← loop_dressed dressed] at loop
    have holds := loop_holds (start_holds decodedLen) loop
    rw [List.nil_append, read_encode] at holds
    exact decoded_unique holds

theorem decoded_length {text : CStr} {bytes : Bytes} (ok : base32Decode memory text = some bytes) :
    bytes.length = 5 * text.bytes.countP isSymbol / 8 := by
  obtain ⟨decodedLen, state, loop, rfl⟩ := base32Decode_some ok
  have holds := loop_holds (start_holds decodedLen) loop
  have lengths := congrArg List.length holds.whole
  have left := holds.few
  have fives : ∀ values : List Nat, (values.flatMap (bits 5)).length = 5 * values.length := by
    intro values
    induction values with
    | nil => rfl
    | cons value values ih =>
      rw [List.flatMap_cons, List.length_append, length_bits, ih, List.length_cons]
      omega
  rw [List.nil_append, fives, length_read, List.length_append, length_byteBits, length_bits] at lengths
  omega

end

/-- A secret in any letter case, with or without its padding, and with spaces and line ends
anywhere, is the bytes it encodes. Whatever is accepted has a byte for each eight whole bits. -/
theorem base32_decode_encode (memory : Nat → Bool) :
    (∀ (bytes : Bytes) (text : CStr), Dressed (ignored · = true) (encode bytes) text.bytes →
      base32Decode memory text = some bytes ∨ (base32Decode memory text = none ∧ ∃ size, memory size = false)) ∧
    ∀ (text : CStr) (bytes : Bytes), base32Decode memory text = some bytes →
    bytes.length = 5 * text.bytes.countP isSymbol / 8 :=
  ⟨fun _ _ dressed => decoded_spelling dressed, fun _ _ ok => decoded_length ok⟩

/-- Padding and any white space. -/
def whiteOrPad (char : UInt8) : Prop := char = pad ∨ char = 32 ∨ (9 ≤ char ∧ char ≤ 13)

def tabbed : CStr where
  bytes := literal "M\tY"
  clean := by decide
  short := by decide

/-- A tab between two letters is not passed over. -/
theorem tab_refused : ¬ ∀ (bytes : Bytes) (text : CStr), Dressed whiteOrPad (encode bytes) text.bytes →
    base32Decode (fun _ => true) text = some bytes := by
  intro always
  have encoded : encode [102] = [77, 89, 61, 61, 61, 61, 61, 61] := by decide
  have unpadded : Dressed whiteOrPad [61, 61, 61, 61, 61, 61] [] :=
    .unpadded (.unpadded (.unpadded (.unpadded (.unpadded (.unpadded .nil)))))
  have dressed : Dressed whiteOrPad (encode [102]) tabbed.bytes := by
    rw [encoded]
    exact .letter rfl (.filled (Or.inr (Or.inr (by decide))) (.letter rfl unpadded))
  have refused : base32Decode (fun _ => true) tabbed = none := rfl
  rw [always [102] tabbed dressed] at refused
  cases refused

end

def decimal : Nat → Nat → Bytes
  | 0, _ => []
  | width + 1, value => decimal width (value / 10) ++ [UInt8.ofNat (48 + value % 10)]

theorem length_decimal (width value : Nat) : (decimal width value).length = width := by
  induction width generalizing value with
  | zero => rfl
  | succ width ih => rw [decimal, List.length_append, ih, List.length_singleton]

theorem decimal_zero (width : Nat) : decimal width 0 = List.replicate width 48 := by
  induction width with
  | zero => rfl
  | succ width ih => rw [decimal, Nat.zero_div, ih, List.replicate_succ']; rfl

theorem unsigned_small {value : Nat} (small : value < 10) : Audit.unsigned value = [UInt8.ofNat (48 + value)] := by
  have digits : ∀ digit < 10, Audit.unsigned digit = [UInt8.ofNat (48 + digit)] := by decide +kernel
  exact digits value small

theorem unsigned_large {value : Nat} (large : 10 ≤ value) : Audit.unsigned value = Audit.unsigned (value / 10) ++
    [UInt8.ofNat (48 + value % 10)] := by
  have last : (Nat.toDigits 10 (value % 10)).flatMap String.utf8EncodeChar = [UInt8.ofNat (48 + value % 10)] := by
    rw [← Audit.unsigned_eq, unsigned_small (Nat.mod_lt _ (by decide))]
  rw [Nat.toDigits_of_lt_base (Nat.mod_lt _ (by decide))] at last
  rw [Audit.unsigned_eq, Nat.toDigits_of_base_le (by decide) large, List.flatMap_append, last, ← Audit.unsigned_eq]

/-- Zeros in front of a number make it as wide as it is to be. -/
theorem padded_eq {width value : Nat} (small : value < 10 ^ (width + 1)) :
    padded (width + 1) value = decimal (width + 1) value ∧ (Audit.unsigned value).length ≤ width + 1 := by
  induction width generalizing value with
  | zero =>
    have one : value < 10 := by simpa using small
    rw [padded, unsigned_small one, decimal, Nat.div_eq_of_lt one, Nat.mod_eq_of_lt one]
    exact ⟨rfl, Nat.le_refl 1⟩
  | succ width ih =>
    by_cases one : value < 10
    · rw [padded, unsigned_small one, decimal, Nat.div_eq_of_lt one, Nat.mod_eq_of_lt one, decimal_zero]
      exact ⟨rfl, by simp⟩
    · have large : 10 ≤ value := Nat.le_of_not_lt one
      have less : value / 10 < 10 ^ (width + 1) := by
        rw [Nat.pow_succ] at small
        omega
      obtain ⟨same, short⟩ := ih less
      rw [padded, unsigned_large large, decimal, ← same, padded]
      simp only [List.length_append, List.length_singleton, Nat.add_sub_add_right, List.append_assoc]
      exact ⟨trivial, by omega⟩

/-- The four bytes at the place that the last byte names, without their highest bit. -/
def truncated (mac : Bytes) : Nat := beNat ((mac.drop ((mac.getD (mac.length - 1) 0).toNat % 16)).take 4) % 2 ^ 31

theorem bytes_joined (first second third fourth : Nat) (two : second < 256) (three : third < 256) (four : fourth < 256) :
    first * 16777216 ||| second * 65536 ||| third * 256 ||| fourth = ((first * 256 + second) * 256 + third) * 256 +
    fourth := by
  have upper : first * 16777216 + second * 65536 = (first * 256 + second) * 65536 := by omega
  have lower (front : Nat) : front * 65536 + third * 256 = (front * 256 + third) * 256 :=
    by simp only [Nat.add_mul, Nat.mul_assoc, Nat.reduceMul]
  have joined (high low place size : Nat) (power : 2 ^ place = size) (small : low < size) :
    high * size ||| low = high * size + low := by
    subst power
    rw [← Nat.shiftLeft_eq, ← Nat.shiftLeft_add_eq_or_of_lt small]
  have top := joined first (second * 65536) 24 16777216 rfl (by omega)
  have middle := joined (first * 256 + second) (third * 256) 16 65536 rfl (by omega)
  have bottom := joined ((first * 256 + second) * 256 + third) fourth 8 256 rfl four
  rw [top, upper, middle, lower, bottom]

theorem word_eq (first second third fourth : UInt8) :
    ((first.toUInt32 &&& 0x7F) <<< 24 ||| second.toUInt32 <<< 16 ||| third.toUInt32 <<< 8 ||| fourth.toUInt32).toNat =
      beNat [first, second, third, fourth] % 2 ^ 31 := by
  have two := second.toNat_lt
  have three := third.toNat_lt
  have four := fourth.toNat_lt
  have low : first.toNat &&& 127 = first.toNat % 128 := Nat.and_two_pow_sub_one_eq_mod first.toNat 7
  have bytes : beNat [first, second, third, fourth] = ((first.toNat * 256 + second.toNat) * 256 + third.toNat) * 256 +
    fourth.toNat := by
    simp only [beNat, List.foldl_cons, List.foldl_nil, Nat.zero_mul, Nat.zero_add]
  rw [bytes]
  simp only [UInt32.toNat_or, UInt32.toNat_shiftLeft, UInt32.toNat_and, UInt8.toNat_toUInt32, UInt32.reduceToNat,
    Nat.shiftLeft_eq, low, Nat.reduceMod,
    Nat.reducePow]
  generalize first.toNat = first
  generalize second.toNat = second at two
  generalize third.toNat = third at three
  generalize fourth.toNat = fourth at four
  rw [Nat.mod_eq_of_lt (show first % 128 * 16777216 < 4294967296 by omega),
    Nat.mod_eq_of_lt (show second * 65536 < 4294967296 by omega),
    Nat.mod_eq_of_lt (show third * 256 < 4294967296 by omega), bytes_joined _ _ _ _ two three four]
  omega

theorem hotpTruncate_ok {mac : Bytes} (long : 20 ≤ mac.length) (digits : UInt32) :
    hotpTruncate mac digits = .ok (UInt32.ofNat (truncated mac) % (List.range digits.toNat).foldl
    (fun divisor _ => divisor * 10) (1 : UInt32)) := by
  have last : (mac.getD (mac.length - 1) 0 &&& 0x0F).toNat = (mac.getD (mac.length - 1) 0).toNat % 16 := by
    rw [UInt8.toNat_and]
    exact Nat.and_two_pow_sub_one_eq_mod _ 4
  have inside := Nat.mod_lt (mac.getD (mac.length - 1) 0).toNat (show 0 < 16 by decide)
  unfold hotpTruncate truncated
  rw [if_neg (by omega)]
  dsimp only
  rw [last]
  generalize (mac.getD (mac.length - 1) 0).toNat % 16 = offset at inside
  rw [if_neg (by omega)]
  have four : (mac.drop offset).take 4 = [mac.getD offset 0, mac.getD (offset + 1) 0, mac.getD (offset + 2) 0,
    mac.getD (offset + 3) 0] := by
    have here (place : Nat) (few : place < 4) : mac[offset + place]? = some (mac.getD (offset + place) 0) := by
      rw [List.getD_eq_getElem?_getD, List.getElem?_eq_getElem (by omega)]
      rfl
    refine List.ext_getElem? fun place => ?_
    rw [List.getElem?_take]
    obtain _ | _ | _ | _ | place := place
    · rw [if_pos (by decide), List.getElem?_drop]
      exact here 0 (by decide)
    · rw [if_pos (by decide), List.getElem?_drop]
      exact here 1 (by decide)
    · rw [if_pos (by decide), List.getElem?_drop]
      exact here 2 (by decide)
    · rw [if_pos (by decide), List.getElem?_drop]
      exact here 3 (by decide)
    · rw [if_neg (by omega)]
      rfl
  rw [four, ← word_eq, UInt32.ofNat_toNat]

/-- The bytes that the loop over the counter has written. -/
theorem counterBytes_eq (counter : UInt64) : counterBytes counter = beBytes 8 counter.toNat := by
  have loop (rounds : Nat) : ∃ rest : UInt64, (List.range rounds).foldl
      (fun (state : Bytes × UInt64) _ => ((state.2 &&& 0xFF).toUInt8 :: state.1, state.2 >>> 8)) ([], counter) =
        (beBytes rounds counter.toNat, rest) ∧ rest.toNat = counter.toNat / 256 ^ rounds := by
    induction rounds with
    | zero => exact ⟨counter, rfl, by simp⟩
    | succ rounds ih =>
      obtain ⟨rest, same, value⟩ := ih
      refine ⟨rest >>> 8, ?_, ?_⟩
      · rw [List.range_succ, List.foldl_append, same, List.foldl_cons, List.foldl_nil, beBytes]
        refine Prod.ext (congrArg (· :: _) (UInt8.toNat_inj.mp ?_)) rfl
        have low : rest.toNat &&& 255 = rest.toNat % 256 := Nat.and_two_pow_sub_one_eq_mod rest.toNat 8
        rw [UInt64.toNat_toUInt8, UInt64.toNat_and]
        change (rest.toNat &&& 255) % 256 = _
        rw [low, value, UInt8.toNat_ofNat']
        exact Nat.mod_mod _ 256
      · rw [UInt64.toNat_shiftRight, value]
        simp only [UInt64.reduceToNat, Nat.reduceMod, Nat.shiftRight_eq_div_pow, Nat.reducePow]
        rw [Nat.div_div_eq_div_mul, Nat.pow_succ]
  obtain ⟨rest, same, -⟩ := loop 8
  exact congrArg Prod.fst same

section
variable {hmac : Hmac} {params : Params} {time : UInt64} {size : Nat} {code : Bytes}

def macOf (hmac : Hmac) (params : Params) (counter : Nat) : Option Bytes :=
  (hmac params.digest params.secret (beBytes 8 counter)).map (·.bytes)

/-- The code of a counter: the last digits of what is cut out of its authentication code. -/
def codeOf (hmac : Hmac) (params : Params) (counter : Nat) : Option Bytes :=
  (macOf hmac params counter).map fun mac => decimal params.digits.toNat (truncated mac)

theorem decimal_mod (width value : Nat) : decimal width (value % 10 ^ width) = decimal width value := by
  induction width generalizing value with
  | zero => rfl
  | succ width ih =>
    have front : value % 10 ^ (width + 1) / 10 = value / 10 % 10 ^ width := by
      rw [Nat.pow_succ, Nat.mul_comm, Nat.mod_mul_right_div_self]
    have last : value % 10 ^ (width + 1) % 10 = value % 10 :=
      Nat.mod_mod_of_dvd value ⟨10 ^ width, by rw [Nat.pow_succ, Nat.mul_comm]⟩
    rw [decimal, decimal, front, last, ih]

theorem digest_length (digest : Digest) : 20 ≤ digest.length := by cases digest <;> decide

theorem truncated_lt (mac : Bytes) : truncated mac < 2 ^ 31 := Nat.mod_lt _ (by decide)

theorem padded_code {digits : UInt32} (allowed : digits = 6 ∨ digits = 8) (mac : Bytes) (room : 9 ≤ size) :
    (padded digits.toNat
      (UInt32.ofNat (truncated mac) % (List.range digits.toNat).foldl (fun divisor _ => divisor * 10)
      (1 : UInt32)).toNat).take (size - 1) =
      decimal digits.toNat (truncated mac) := by
  have small := truncated_lt mac
  have word : (UInt32.ofNat (truncated mac)).toNat = truncated mac :=
    UInt32.toNat_ofNat_of_lt' (Nat.lt_trans small (by decide))
  have shown (width : Nat) (short : width + 1 ≤ 8) : (padded (width + 1) (truncated mac % 10 ^ (width + 1))).take (size - 1) =
      decimal (width + 1) (truncated mac) := by
    have same := (padded_eq (Nat.mod_lt (truncated mac) (Nat.pow_pos (show 0 < 10 by decide) : 0 < 10 ^ (width + 1)))).1
    rw [same, decimal_mod, List.take_of_length_le]
    rw [length_decimal]
    omega
  obtain rfl | rfl := allowed
  · have divisor : (List.range (6 : UInt32).toNat).foldl (fun divisor _ => divisor * 10) (1 : UInt32) = 1000000 := by decide
    rw [divisor, UInt32.toNat_mod, word]
    exact shown 5 (by decide)
  · have divisor : (List.range (8 : UInt32).toNat).foldl (fun divisor _ => divisor * 10) (1 : UInt32) = 100000000 := by decide
    rw [divisor, UInt32.toNat_mod, word]
    exact shown 7 (by decide)

def coded : Option Bytes → Except PmError Bytes
  | none => .error .crypto
  | some code => .ok code

theorem coded_ok {made : Option Bytes} : coded made = .ok code ↔ made = some code := by cases made <;> simp [coded]

theorem hotpGenerate_eq (params : Params) (size : Nat) : hotpGenerate hmac params size =
    if size < 9 ∨ params.algorithm ≠ .hotp ∨ (params.digits ≠ 6 ∧ params.digits ≠ 8) then .error .invalidParam
    else coded (codeOf hmac params params.counter.toNat) := by
  unfold hotpGenerate
  by_cases small : size < 9
  · rw [if_pos small, if_pos (.inl small)]
  by_cases other : params.algorithm ≠ .hotp
  · rw [if_neg small, if_pos other, if_pos (.inr (.inl other))]
  by_cases odd : params.digits ≠ 6 ∧ params.digits ≠ 8
  · rw [if_neg small, if_neg other, if_pos odd, if_pos (.inr (.inr odd))]
  have none : ¬ (size < 9 ∨ params.algorithm ≠ .hotp ∨ (params.digits ≠ 6 ∧ params.digits ≠ 8)) := by simp [small, other, odd]
  have allowed : params.digits = 6 ∨ params.digits = 8 := by
    by_contra neither
    exact odd (not_or.mp neither)
  rw [if_neg small, if_neg other, if_neg odd, if_neg none, otpHmac, counterBytes_eq, codeOf, macOf]
  cases made : hmac params.digest params.secret (beBytes 8 params.counter.toNat) with
  | none => rfl
  | some mac =>
    have long : 20 ≤ mac.bytes.length := by
      rw [mac.length_bytes]
      exact digest_length params.digest
    have cut := hotpTruncate_ok long params.digits
    have shown := padded_code allowed mac.bytes (Nat.le_of_not_lt small)
    calc (do let code ← hotpTruncate (← Except.ok mac.bytes) params.digits; .ok ((padded params.digits.toNat code.toNat).take (size - 1)))
      _ = (do let code ← hotpTruncate mac.bytes params.digits; .ok ((padded params.digits.toNat code.toNat).take (size - 1))) := rfl
      _ = .ok ((padded params.digits.toNat _).take (size - 1)) := by
        rw [cut]
        rfl
      _ = .ok (decimal params.digits.toNat (truncated mac.bytes)) := by rw [shown]

def window (params : Params) (time : UInt64) : Nat := time.toNat / params.period.toNat

theorem totpGenerate_eq (params : Params) (time : UInt64) (size : Nat) : totpGenerate hmac params time size =
    if size < 9 ∨ params.algorithm ≠ .totp ∨ params.period = 0 ∨
    (params.digits ≠ 6 ∧ params.digits ≠ 8) then .error .invalidParam
    else coded (codeOf hmac params (window params time)) := by
  have counter : (time / params.period.toUInt64).toNat = window params time := by
    rw [UInt64.toNat_div, UInt32.toNat_toUInt64]
    rfl
  unfold totpGenerate
  by_cases small : size < 9
  · rw [if_pos small, if_pos (.inl small)]
  by_cases other : params.algorithm ≠ .totp
  · rw [if_neg small, if_pos other, if_pos (.inr (.inl other))]
  by_cases still : params.period = 0
  · rw [if_neg small, if_neg other, if_pos still, if_pos (.inr (.inr (.inl still)))]
  rw [if_neg small, if_neg other, if_neg still, hotpGenerate_eq]
  by_cases odd : params.digits ≠ 6 ∧ params.digits ≠ 8
  · rw [if_pos (.inr (.inr odd)), if_pos (.inr (.inr (.inr odd)))]
  · rw [if_neg (by simp [small, odd]), if_neg (by simp [small, other, still, odd])]
    dsimp only
    rw [counter]
    rfl

/-- A code is given for six or eight digits and where its buffer has room, and it is what the
counter, or the number of the window that the time is in, makes of the secret. -/
theorem codes_of_counters (hmac : Hmac) (params : Params) (time : UInt64) (size : Nat) (code : Bytes) :
    (hotpGenerate hmac params size = .ok code ↔
      9 ≤ size ∧ params.algorithm = .hotp ∧ (params.digits = 6 ∨ params.digits = 8) ∧
      codeOf hmac params params.counter.toNat = some code) ∧
    (totpGenerate hmac params time size = .ok code ↔
      9 ≤ size ∧ params.algorithm = .totp ∧ params.period ≠ 0 ∧ (params.digits = 6 ∨ params.digits = 8) ∧
        codeOf hmac params (time.toNat / params.period.toNat) = some code) := by
  constructor
  · rw [hotpGenerate_eq]
    split
    next refused =>
      refine iff_of_false nofun fun ⟨room, same, allowed, _⟩ => ?_
      obtain small | other | ⟨six, eight⟩ := refused
      · omega
      · exact other same
      · exact allowed.elim six eight
    next taken =>
      rw [coded_ok]
      have room : 9 ≤ size := Nat.le_of_not_lt fun small => taken (.inl small)
      have same : params.algorithm = .hotp := Decidable.byContradiction fun other => taken (.inr (.inl other))
      have allowed : params.digits = 6 ∨ params.digits = 8 :=
        Decidable.byContradiction fun odd => taken (.inr (.inr (not_or.mp odd)))
      exact ⟨fun made => ⟨room, same, allowed, made⟩, fun ⟨_, _, _, made⟩ => made⟩
  · rw [totpGenerate_eq]
    split
    next refused =>
      refine iff_of_false nofun fun ⟨room, same, moves, allowed, _⟩ => ?_
      obtain small | other | still | ⟨six, eight⟩ := refused
      · omega
      · exact other same
      · exact moves still
      · exact allowed.elim six eight
    next taken =>
      rw [coded_ok]
      have room : 9 ≤ size := Nat.le_of_not_lt fun small => taken (.inl small)
      have same : params.algorithm = .totp := Decidable.byContradiction fun other => taken (.inr (.inl other))
      have moves : params.period ≠ 0 := fun still => taken (.inr (.inr (.inl still)))
      have allowed : params.digits = 6 ∨ params.digits = 8 :=
        Decidable.byContradiction fun odd => taken (.inr (.inr (.inr (not_or.mp odd))))
      exact ⟨fun made => ⟨room, same, moves, allowed, made⟩, fun ⟨_, _, _, _, made⟩ => made⟩

end

section
variable {hmac : Hmac} {memory : UriMemory} {uri : CStr} {params : Params} {time later : UInt64} {size : Nat}

def left (params : Params) (time : UInt64) : Nat := params.period.toNat - time.toNat % params.period.toNat

theorem remaining_eq (moves : params.period ≠ 0) (time : UInt64) : (totpRemainingSeconds params.period time).toNat =
    left params time := by
  have positive : 0 < params.period.toNat := Nat.pos_of_ne_zero fun zero => moves (UInt32.toNat_inj.mp zero)
  have inside := Nat.mod_lt time.toNat positive
  have small := params.period.toNat_lt
  unfold totpRemainingSeconds left
  have less : time % params.period.toUInt64 ≤ params.period.toUInt64 := by
    rw [UInt64.le_iff_toNat_le, UInt64.toNat_mod, UInt32.toNat_toUInt64]
    exact Nat.le_of_lt inside
  rw [if_neg moves, UInt64.toNat_toUInt32, UInt64.toNat_sub_of_le _ _ less, UInt64.toNat_mod, UInt32.toNat_toUInt64]
  exact Nat.mod_eq_of_lt (by omega)

/-- Within the window its number stays, and what is left of it goes down with the time. -/
theorem window_lasts (since : time ≤ later) (before : later.toNat < time.toNat + left params time) :
    window params later = window params time ∧ left params later = left params time - (later.toNat - time.toNat) := by
  have order : time.toNat ≤ later.toNat := since
  unfold window left at *
  have positive : 0 < params.period.toNat := by
    by_contra none
    simp only [Nat.eq_zero_of_not_pos none, Nat.mod_zero] at before
    omega
  generalize params.period.toNat = period at *
  generalize time.toNat = time at *
  generalize later.toNat = later at *
  have split := Nat.div_add_mod time period
  have inside := Nat.mod_lt time positive
  have same : later / period = time / period :=
    Nat.div_eq_of_lt_le (by rw [Nat.mul_comm]; omega) (by rw [Nat.mul_comm, Nat.mul_succ]; omega)
  have split_later := Nat.div_add_mod later period
  rw [same] at split_later
  exact ⟨same, by omega⟩

theorem window_ends (moves : params.period ≠ 0) (now : later.toNat = time.toNat + left params time) :
    window params later = window params time + 1 ∧ left params later = params.period.toNat := by
  have positive : 0 < params.period.toNat := Nat.pos_of_ne_zero fun zero => moves (UInt32.toNat_inj.mp zero)
  have inside := Nat.mod_lt time.toNat positive
  have split := Nat.div_add_mod time.toNat params.period.toNat
  unfold window left at *
  have next : later.toNat = params.period.toNat * (time.toNat / params.period.toNat + 1) := by
    rw [Nat.mul_succ]
    omega
  rw [next, Nat.mul_div_cancel_left _ positive, Nat.mul_mod_right]
  exact ⟨rfl, Nat.sub_zero _⟩

theorem getLiveStatus_eq (parsed : parseUri memory uri = .ok params) (room : 9 ≤ size) (based : params.algorithm = .totp) :
    getLiveStatus hmac memory uri time size =
      (totpGenerate hmac params time size).map fun code => (code, totpRemainingSeconds params.period time) := by
  unfold getLiveStatus
  rw [if_neg (Nat.not_lt.mpr room), parsed]
  change (if params.algorithm ≠ .totp then Except.error PmError.unsupported else _) = _
  rw [if_neg (fun other => other based)]
  cases totpGenerate hmac params time size <;> rfl

/-- A code that is shown is the same as long as it is said to be, and the number of seconds goes
down to the end. Then there is the code of the next window, for a whole period. -/
theorem live_status_lasts (hmac : Hmac) (memory : UriMemory) (uri : CStr) (time : UInt64) (size : Nat) (code : Bytes)
    (remaining : UInt32)
    (shown : getLiveStatus hmac memory uri time size = .ok (code, remaining)) :
    ∃ params, parseUri memory uri = .ok params ∧ 0 < remaining ∧ remaining ≤ params.period ∧
      (∀ later, time ≤ later → later.toNat < time.toNat + remaining.toNat →
        getLiveStatus hmac memory uri later size = .ok (code, remaining - (later - time).toUInt32)) ∧
      ∀ later, later.toNat = time.toNat + remaining.toNat →
        getLiveStatus hmac memory uri later size =
          match codeOf hmac params (time.toNat / params.period.toNat + 1) with
          | none => .error .crypto
          | some next => .ok (next, params.period) := by
  have room : 9 ≤ size := by
    by_contra small
    rw [getLiveStatus, if_pos (Nat.lt_of_not_le small)] at shown
    cases shown
  cases parsed : parseUri memory uri with
  | error reason =>
    rw [getLiveStatus, if_neg (Nat.not_lt.mpr room), parsed] at shown
    cases shown
  | ok params =>
    have based : params.algorithm = .totp := by
      by_contra other
      rw [getLiveStatus, if_neg (Nat.not_lt.mpr room), parsed] at shown
      change (if params.algorithm ≠ .totp then Except.error PmError.unsupported else _) = _ at shown
      rw [if_pos other] at shown
      cases shown
    have status (instant : UInt64) : getLiveStatus hmac memory uri instant size =
        (totpGenerate hmac params instant size).map fun code => (code, totpRemainingSeconds params.period instant) :=
      getLiveStatus_eq parsed room based
    have first := shown
    rw [status, totpGenerate_eq] at first
    split at first
    next => cases first
    next allowed =>
      have moves : params.period ≠ 0 := fun still => allowed (.inr (.inr (.inl still)))
      have generated (instant : UInt64) : totpGenerate hmac params instant size =
          coded (codeOf hmac params (window params instant)) := by rw [totpGenerate_eq, if_neg allowed]
      cases made : codeOf hmac params (window params time) with
      | none =>
        rw [made] at first
        cases first
      | some other =>
        rw [made] at first
        obtain ⟨rfl, rfl⟩ := Prod.mk.inj (Except.ok.inj first)
        have seconds := remaining_eq moves time
        have period := params.period.toNat_lt
        have inside := Nat.mod_lt time.toNat (Nat.pos_of_ne_zero fun zero => moves (UInt32.toNat_inj.mp zero) :
          0 < params.period.toNat)
        have bounds : 0 < left params time ∧ left params time ≤ params.period.toNat :=
          ⟨Nat.sub_pos_of_lt inside, Nat.sub_le _ _⟩
        refine ⟨params, rfl, UInt32.lt_iff_toNat_lt.mpr (seconds ▸ bounds.1),
          UInt32.le_iff_toNat_le.mpr (seconds ▸ bounds.2), ?_, ?_⟩
        · intro later since before
          rw [seconds] at before
          obtain ⟨same, less⟩ := window_lasts since before
          have order : time.toNat ≤ later.toNat := since
          have gone : (later - time).toUInt32.toNat = later.toNat - time.toNat := by
            rw [UInt64.toNat_toUInt32, UInt64.toNat_sub_of_le _ _ since]
            exact Nat.mod_eq_of_lt (by omega)
          have fewer : totpRemainingSeconds params.period later =
            totpRemainingSeconds params.period time - (later - time).toUInt32 := by
            refine UInt32.toNat_inj.mp ?_
            rw [remaining_eq moves, less,
              UInt32.toNat_sub_of_le _ _ (by rw [UInt32.le_iff_toNat_le, seconds, gone]; omega), seconds, gone]
          rw [status, generated, same, made, fewer]
          rfl
        · intro later now
          rw [seconds] at now
          obtain ⟨next, full⟩ := window_ends moves now
          have whole : totpRemainingSeconds params.period later = params.period := by
            refine UInt32.toNat_inj.mp ?_
            rw [remaining_eq moves, full]
          rw [status, generated, next, whole, window]
          cases codeOf hmac params (time.toNat / params.period.toNat + 1) <;> rfl

def numberedSecret : CStr where
  bytes := literal "otpauth://totp/Example:alice?secret=GEZDGNBVGY3TQOJQGEZDGNBVGY3TQOJQ&digits=8"
  clean := by decide +kernel
  short := by decide +kernel

def firstMac : Buf 20 :=
  .ofBytes [0x75, 0xa4, 0x8a, 0x19, 0xd4, 0xcb, 0xe1, 0x00, 0x64, 0x4e, 0x8a, 0xc1, 0x39, 0x7e, 0xea, 0x74, 0x7a, 0x2d,
    0x33, 0xab] rfl

def firstHmac : Hmac
  | .sha1, secret, message =>
    if secret = literal "12345678901234567890" ∧ message = [0, 0, 0, 0, 0, 0, 0, 1] then some firstMac else none
  | .sha256, _, _ => none
  | .sha512, _, _ => none

theorem live_status_lasts_twenty : ∃ params,
    parseUri { copy := true, secret := true, decode := fun _ => true } numberedSecret = .ok params ∧
    (0 : UInt32) < 20 ∧ (20 : UInt32) ≤ params.period ∧
      (∀ later, (40 : UInt64) ≤ later → later.toNat < (40 : UInt64).toNat + (20 : UInt32).toNat →
        getLiveStatus firstHmac { copy := true, secret := true, decode := fun _ => true } numberedSecret later 9 =
          .ok (literal "94287082", 20 - (later - 40).toUInt32)) ∧
      ∀ later, later.toNat = (40 : UInt64).toNat + (20 : UInt32).toNat →
        getLiveStatus firstHmac { copy := true, secret := true, decode := fun _ => true } numberedSecret later 9 =
          match codeOf firstHmac params ((40 : UInt64).toNat / params.period.toNat + 1) with
          | none => .error .crypto
          | some next => .ok (next, params.period) :=
  live_status_lasts firstHmac { copy := true, secret := true, decode := fun _ => true } numberedSecret 40 9
    (literal "94287082") 20
    (by decide +kernel)

end

theorem isDigitOf_letter : ∀ digit < 10, isDigitOf 10 (UInt8.ofNat (48 + digit)) = true ∧
    digitOf (UInt8.ofNat (48 + digit)) = some digit := by
  decide +kernel

theorem numeral_unsigned (value : Nat) :
    numeral 10 (Audit.unsigned value) = value ∧ Audit.unsigned value ≠ [] ∧ ∀ byte ∈ Audit.unsigned value,
    isDigitOf 10 byte = true := by
  induction value using Nat.strong_induction_on with
  | _ value ih =>
    by_cases small : value < 10
    · obtain ⟨digit, letter⟩ := isDigitOf_letter value small
      rw [unsigned_small small]
      refine ⟨?_, List.cons_ne_nil _ _, fun byte inside => ?_⟩
      · simp only [numeral, List.foldl_cons, List.foldl_nil, letter, Option.getD_some, Nat.zero_mul, Nat.zero_add]
      · rw [List.mem_singleton.mp inside, digit]
    · have large : 10 ≤ value := Nat.le_of_not_lt small
      obtain ⟨front, there, digits⟩ := ih (value / 10) (Nat.div_lt_self (by omega) (by decide))
      obtain ⟨digit, letter⟩ := isDigitOf_letter (value % 10) (Nat.mod_lt _ (by decide))
      rw [unsigned_large large]
      refine ⟨?_, by simp, fun byte inside => ?_⟩
      · rw [numeral, List.foldl_append, ← numeral, front]
        simp only [List.foldl_cons, List.foldl_nil, letter, Option.getD_some]
        exact Nat.div_add_mod' value 10
      · obtain inside | last := List.mem_append.mp inside
        · exact digits byte inside
        · rw [List.mem_singleton.mp last, digit]

theorem scanned (value : Nat) : scanNumber (fun text => (10, text)) (Audit.unsigned value) = some ⟨false, value, []⟩ := by
  obtain ⟨same, there, digits⟩ := numeral_unsigned value
  obtain ⟨first, rest, written⟩ := List.exists_cons_of_ne_nil there
  rw [written] at same digits ⊢
  rw [Hibp.scanNumber_digits digits, same]

theorem atoi_unsigned (value : UInt32) : atoi (Audit.unsigned value.toNat) = value := by
  have small := value.toNat_lt
  rw [atoi, strtol, scanned]
  have low : ¬ ((value.toNat : Int) < -2 ^ 63) := by omega
  have high : ¬ (2 ^ 63 ≤ (value.toNat : Int)) := by omega
  simp only [Bool.false_eq_true, if_false, if_neg low, if_neg high]
  simp [Int32.ofInt]

theorem strtoull_unsigned (value : UInt64) : (strtoull (Audit.unsigned value.toNat)).value = value.toNat := by
  have small := value.toNat_lt
  rw [strtoull, scanned]
  dsimp only
  rw [if_neg (by omega)]
  rfl

/-- A key and a value. -/
abbrev Field := Bytes × Bytes

def Field.text (field : Field) : Bytes := field.1 ++ equalSign :: field.2

/-- The key and the value are found again. -/
structure Field.Plain (field : Field) : Prop where
  key : equalSign ∉ field.1 ∧ ampersand ∉ field.1
  value : ampersand ∉ field.2

section
variable {memory : UriMemory} {fields : List Field} {field : Field} {key value : Bytes} {state start : Parsing}

def assigned (memory : UriMemory) (state : Parsing) (field : Field) : Parsing := parseToken memory state field.text

theorem assigned_eq (plain : equalSign ∉ key) : assigned memory state (key, value) =
    if key = literal "secret" then { state with secretB32 := if memory.secret then dupBytesAsCstr value else none }
    else if key = literal "digits" then { state with params := { state.params with digits := atoi value } }
    else if key = literal "period" then { state with params := { state.params with period := atoi value } }
    else if key = literal "counter" then { state with params := { state.params with counter := UInt64.ofNat (strtoull value).value.toNat } }
    else if key = literal "algorithm" then
      if value = literal "SHA256" then { state with params := { state.params with digest := .sha256 } }
      else if value = literal "SHA512" then { state with params := { state.params with digest := .sha512 } }
      else state
    else state := by
  have found : (key ++ equalSign :: value).takeWhile (· ≠ equalSign) = key := by
    have other : ∀ byte ∈ key, decide (byte ≠ equalSign) = true :=
      fun byte inside => decide_eq_true fun same => plain (same ▸ inside)
    rw [List.takeWhile_append_of_pos other, List.takeWhile_cons_of_neg (by simp), List.append_nil]
  have behind : (key ++ equalSign :: value).drop (key.length + 1) = value :=
    by rw [List.drop_append, List.drop_eq_nil_of_le (by omega)]; simp
  have inner : key.length ≠ (key ++ equalSign :: value).length := by simp
  unfold assigned parseToken Field.text
  simp only [found, behind, if_neg inner]

theorem assigned_other (memory : UriMemory) (state : Parsing) (plain : equalSign ∉ field.1) :
    (assigned memory state field).params.algorithm = state.params.algorithm ∧
    (assigned memory state field).params.secret = state.params.secret ∧
    (field.1 ≠ literal "secret" → (assigned memory state field).secretB32 = state.secretB32) ∧
    (field.1 ≠ literal "digits" → (assigned memory state field).params.digits = state.params.digits) ∧
    (field.1 ≠ literal "period" → (assigned memory state field).params.period = state.params.period) ∧
    (field.1 ≠ literal "counter" → (assigned memory state field).params.counter = state.params.counter) ∧
    (field.1 ≠ literal "algorithm" → (assigned memory state field).params.digest = state.params.digest) := by
  rw [show assigned memory state field = assigned memory state (field.1, field.2) from rfl, assigned_eq plain]
  split_ifs <;> simp_all

theorem strtok_fields (plain : ∀ field ∈ fields, field.Plain) (there : fields ≠ []) :
    strtok ampersand ([ampersand].intercalate (fields.map Field.text)) = fields.map Field.text := by
  have unmarked : ∀ text ∈ fields.map Field.text, ampersand ∉ text := by
    intro text inside
    obtain ⟨field, member, rfl⟩ := List.mem_map.mp inside
    obtain ⟨⟨_, key⟩, value⟩ := plain field member
    have mark : ampersand ≠ equalSign := by decide
    simp [Field.text, key, value, mark]
  rw [strtok, List.splitOn_intercalate _ unmarked (by simpa using there), List.filter_eq_self]
  intro text inside
  obtain ⟨field, _, rfl⟩ := List.mem_map.mp inside
  simp [Field.text]

end

def Digest.name : Digest → Bytes
  | .sha1 => literal "SHA1"
  | .sha256 => literal "SHA256"
  | .sha512 => literal "SHA512"

def Algorithm.name : Algorithm → Bytes
  | .hotp => literal "hotp/"
  | .totp => literal "totp/"

/-- A key is given, or it is left out where its default is meant. -/
def Gives (fields : List Field) (key : Bytes) (text : Bytes) (usual : Prop) : Prop :=
  (key, text) ∈ fields ∨ (key ∉ fields.map Prod.fst ∧ usual)

/-- The parameters are spelled among the fields, in any order. -/
structure Spells (params : Params) (fields : List Field) : Prop where
  plain : ∀ field ∈ fields, field.Plain
  once : (fields.map Prod.fst).Nodup
  secret : ∃ text, (literal "secret", text) ∈ fields ∧ Base32.Dressed (ignored · = true) (Base32.encode params.secret) text
  digits : Gives fields (literal "digits") (Audit.unsigned params.digits.toNat) (params.digits = 6)
  period : Gives fields (literal "period") (Audit.unsigned params.period.toNat) (params.period = 30)
  counter : Gives fields (literal "counter") (Audit.unsigned params.counter.toNat) (params.counter = 0)
  digest : Gives fields (literal "algorithm") params.digest.name (params.digest = .sha1)

def uriText (algorithm : Algorithm) (label : Bytes) (fields : List Field) : Bytes :=
  literal "otpauth://" ++ algorithm.name ++ label ++ questionMark :: [ampersand].intercalate (fields.map Field.text)

def starting (algorithm : Algorithm) : Parsing where
  params := { algorithm, digest := .sha1, secret := [], digits := 6, period := 30, counter := 0 }
  secretB32 := none

section
variable {memory : UriMemory} {params : Params} {fields : List Field}

theorem Gives.read {α : Type} (memory : UriMemory) (start : Parsing) (get : Parsing → α) (change : α → α)
    {key text : Bytes} {value : α} {usual : Prop}
    (gives : Gives fields key text usual) (plain : ∀ field ∈ fields, field.Plain) (once : (fields.map Prod.fst).Nodup)
    (other : ∀ (state : Parsing) (field : Field), equalSign ∉ field.1 → field.1 ≠ key →
    get (assigned memory state field) = get state)
    (own : ∀ state : Parsing, get (assigned memory state (key, text)) = change (get state))
    (given : change (get start) = value)
    (default : usual → get start = value) : get (fields.foldl (assigned memory) start) = value := by
  have apart : ∀ state, ∀ field ∈ fields, field.1 ≠ key → get (assigned memory state field) = get state :=
    fun state field inside =>
    other state field (plain field inside).key.1
  obtain present | ⟨absent, usual⟩ := gives
  · rw [foldl_present apart own once present, given]
  · rw [foldl_absent apart absent, default usual]

theorem Digest.assigned (digest : Digest) (state : Parsing) :
    (Otp.assigned memory state (literal "algorithm", digest.name)).params.digest = if digest = .sha1 then
    state.params.digest else digest := by
  rw [assigned_eq (by decide), if_neg (by decide), if_neg (by decide), if_neg (by decide), if_neg (by decide), if_pos rfl]
  cases digest with
  | sha1 => rw [if_neg (by decide), if_neg (by decide), if_pos rfl]
  | sha256 => rw [if_pos (by decide), if_neg (by decide)]
  | sha512 => rw [if_neg (by decide), if_pos (by decide), if_neg (by decide)]

theorem Spells.parsed (memory : UriMemory) (spells : Spells params fields) : ∃ text, Base32.Dressed (ignored · = true)
    (Base32.encode params.secret) text ∧
    (literal "secret", text) ∈ fields ∧
    fields.foldl (assigned memory) (starting params.algorithm) =
      { params := { params with secret := [] }, secretB32 := if memory.secret then dupBytesAsCstr text else none } := by
  obtain ⟨plain, once, ⟨text, present, dressed⟩, digits, period, counter, digest⟩ := spells
  refine ⟨text, dressed, present, ?_⟩
  have secret := Gives.read memory (starting params.algorithm) (fun state => state.secretB32)
    (fun _ => if memory.secret then dupBytesAsCstr text else none)
      (.inl present : Gives fields (literal "secret") text False) plain once
    (fun state _ plain => (assigned_other memory state plain).2.2.1)
      (fun _ => by rw [assigned_eq (by decide), if_pos rfl]) rfl False.elim
  have digits := Gives.read memory (starting params.algorithm) (fun state => state.params.digits)
    (fun _ => params.digits) digits plain once
    (fun state _ plain => (assigned_other memory state plain).2.2.2.1)
    (fun _ => by rw [assigned_eq (by decide), if_neg (by decide), if_pos rfl]; exact atoi_unsigned _) rfl Eq.symm
  have period := Gives.read memory (starting params.algorithm) (fun state => state.params.period)
    (fun _ => params.period) period plain once
    (fun state _ plain => (assigned_other memory state plain).2.2.2.2.1)
    (fun _ => by rw [assigned_eq (by decide), if_neg (by decide), if_neg (by decide), if_pos rfl]; exact atoi_unsigned _) rfl Eq.symm
  have counter := Gives.read memory (starting params.algorithm) (fun state => state.params.counter)
    (fun _ => params.counter) counter plain once
    (fun state _ plain => (assigned_other memory state plain).2.2.2.2.2.1)
    (fun _ => by
      rw [assigned_eq (by decide), if_neg (by decide), if_neg (by decide), if_neg (by decide), if_pos rfl]
      dsimp only
      rw [strtoull_unsigned, Int.toNat_natCast, UInt64.ofNat_toNat]) rfl Eq.symm
  have digest := Gives.read memory (starting params.algorithm) (fun state => state.params.digest)
    (fun before => if params.digest = .sha1 then before else params.digest) digest plain once
    (fun state _ plain => (assigned_other memory state plain).2.2.2.2.2.2) (Digest.assigned params.digest)
    (by split; exacts [Eq.symm ‹_›, rfl]) Eq.symm
  have rest : (fields.foldl (assigned memory) (starting params.algorithm)).params.algorithm = params.algorithm ∧
      (fields.foldl (assigned memory) (starting params.algorithm)).params.secret = [] := by
    refine List.foldlRecOn (motive := fun state => state.params.algorithm = params.algorithm ∧
      state.params.secret = []) fields (assigned memory) ?_
      fun state same field inside => ?_
    · exact ⟨rfl, rfl⟩
    · have apart := assigned_other memory state (plain field inside).key.1
      exact ⟨apart.1.trans same.1, apart.2.1.trans same.2⟩
  generalize fields.foldl (assigned memory) (starting params.algorithm) = final at *
  obtain ⟨⟨_, _, _, _, _, _⟩, _⟩ := final
  simp_all

theorem parseAlgorithm_name (algorithm : Algorithm) (rest : Bytes) : parseAlgorithm (algorithm.name ++ rest) =
    .ok algorithm := by
  unfold parseAlgorithm
  cases algorithm with
  | totp => exact if_pos (List.prefix_append (literal "totp/") rest)
  | hotp =>
    have other : ¬ literal "totp/" <+: Algorithm.name .hotp ++ rest := by
      rintro ⟨more, same⟩
      exact absurd (List.append_inj_left same rfl) (by decide)
    rw [if_neg other]
    exact if_pos (List.prefix_append (literal "hotp/") rest)

theorem questionMark_name (algorithm : Algorithm) : questionMark ∉ literal "otpauth://" ++ algorithm.name :=
    by cases algorithm <;> decide

/-- What is in front of the query is passed over. -/
theorem query_eq (algorithm : Algorithm) (fields : List Field) {label : Bytes} (plain : questionMark ∉ label) :
    (uriText algorithm label fields).drop (((uriText algorithm label fields).takeWhile (· ≠ questionMark)).length + 1) =
      [ampersand].intercalate (fields.map Field.text) := by
  have unmarked : ∀ byte ∈ literal "otpauth://" ++ algorithm.name ++ label, decide (byte ≠ questionMark) = true := by
    intro byte inside
    refine decide_eq_true ?_
    rintro rfl
    obtain inside | inside := List.mem_append.mp inside
    · exact questionMark_name algorithm inside
    · exact plain inside
  unfold uriText
  generalize literal "otpauth://" ++ algorithm.name ++ label = front at unmarked
  rw [List.takeWhile_append_of_pos unmarked, List.takeWhile_cons_of_neg (by simp), List.append_nil, List.drop_append,
    List.drop_eq_nil_of_le (by omega)]
  simp

theorem parseUri_spelled (memory : UriMemory) {uri : CStr} {label : Bytes} (spells : Spells params fields)
    (plain : questionMark ∉ label)
    (written : uri.bytes = uriText params.algorithm label fields) :
    parseUri memory uri =
      if memory.copy = false then .error .nomem
      else
        match (fields.foldl (assigned memory) (starting params.algorithm)).secretB32.bind (base32Decode memory.decode) with
        | none => .error .format
        | some secret =>
          if secret = [] ∨ (fields.foldl (assigned memory) (starting params.algorithm)).params.digits = 0 then .error .format
          else .ok { (fields.foldl (assigned memory) (starting params.algorithm)).params with secret } := by
  obtain ⟨text, present, -⟩ := spells.secret
  have there : fields ≠ [] := List.ne_nil_of_mem present
  have front : literal "otpauth://" <+: uri.bytes := by
    rw [written, uriText, List.append_assoc, List.append_assoc]
    exact List.prefix_append _ _
  have behind : uri.bytes.drop 10 = params.algorithm.name ++
    (label ++ questionMark :: [ampersand].intercalate (fields.map Field.text)) := by
    rw [written, uriText, List.append_assoc, List.append_assoc]
    exact List.drop_left' (by decide)
  have asks : questionMark ∈ uri.bytes := by
    rw [written]
    simp [uriText]
  have query := query_eq params.algorithm fields plain
  unfold parseUri
  rw [if_neg (not_not.mpr front), behind, parseAlgorithm_name]
  dsimp only [bind, Except.bind]
  by_cases copied : memory.copy = false
  · rw [if_pos copied, if_pos copied]
  · rw [if_neg copied, if_neg copied, if_neg (not_not.mpr asks), written, query, strtok_fields spells.plain there,
      List.foldl_map]
    rfl

theorem infix_intercalate {mark item : Bytes} {items : List Bytes} (inside : item ∈ items) :
    item <:+: mark.intercalate items := by
  obtain ⟨place, here⟩ := List.mem_iff_getElem?.mp inside
  exact List.infix_of_mem_flatten (List.mem_of_getElem? (List.getElem?_intersperse_two_mul.trans here))

/-- The text of a field is a string of its own. -/
theorem dup_value {uri : CStr} {algorithm : Algorithm} {label key text : Bytes}
    (written : uri.bytes = uriText algorithm label fields)
    (present : (key, text) ∈ fields) : ∃ copy, dupBytesAsCstr text = some copy ∧ copy.bytes = text := by
  have part : text <:+: uri.bytes := by
    rw [written, uriText]
    have field : text <:+: Field.text (key, text) := ⟨key ++ [equalSign], [], by simp [Field.text]⟩
    have query : Field.text (key, text) <:+: [ampersand].intercalate (fields.map Field.text) :=
      infix_intercalate (List.mem_map_of_mem present)
    exact (field.trans query).trans ⟨literal "otpauth://" ++ algorithm.name ++ label ++ [questionMark], [], by simp⟩
  exact ⟨⟨text, fun zero => uri.clean (part.subset zero), Nat.lt_of_le_of_lt part.length_le uri.short⟩,
    dupBytesAsCstr_bytes ⟨text, _, _⟩, rfl⟩

end

/-- A URI that spells parameters with a secret and some digits is read as these parameters, unless
memory is refused. The fields stand in any order, among fields with other keys, those that have
the usual value may be left out, and the secret is in any letter case, with or without padding. -/
theorem uri_is_read (memory : UriMemory) (uri : CStr) (params : Params) (label : Bytes) (fields : List Field)
    (spells : Spells params fields)
    (plain : questionMark ∉ label) (written : uri.bytes = uriText params.algorithm label fields) (there : params.secret ≠ [])
    (shown : params.digits ≠ 0) :
    parseUri memory uri = .ok params ∨
      ((∃ reason, parseUri memory uri = .error reason) ∧
      (memory.copy = false ∨ memory.secret = false ∨ ∃ size, memory.decode size = false)) := by
  have parsed := parseUri_spelled memory spells plain written
  obtain ⟨text, dressed, present, final⟩ := spells.parsed memory
  obtain ⟨copy, dup, same⟩ := dup_value written present
  rw [final, dup] at parsed
  by_cases refused : memory.copy = false
  · rw [if_pos refused] at parsed
    exact .inr ⟨⟨_, parsed⟩, .inl refused⟩
  rw [if_neg refused] at parsed
  by_cases secret : memory.secret = true
  · rw [if_pos secret, Option.bind_some] at parsed
    have spelled : Base32.Dressed (ignored · = true) (Base32.encode params.secret) copy.bytes := same.symm ▸ dressed
    have outcome : base32Decode memory.decode copy = some params.secret ∨
        (base32Decode memory.decode copy = none ∧ ∃ size, memory.decode size = false) := decoded_spelling spelled
    obtain decoded | ⟨decoded, refused⟩ := outcome
    · rw [decoded] at parsed
      dsimp only at parsed
      rw [if_neg (not_or.mpr ⟨there, shown⟩)] at parsed
      exact .inl parsed
    · rw [decoded] at parsed
      exact .inr ⟨⟨_, parsed⟩, .inr (.inr refused)⟩
  · rw [if_neg secret] at parsed
    exact .inr ⟨⟨_, parsed⟩, .inr (.inl (eq_false_of_ne_true secret))⟩

def numberedParams : Params where
  algorithm := .totp
  digest := .sha1
  secret := literal "12345678901234567890"
  digits := 8
  period := 30
  counter := 0

theorem uri_is_read_numbered :
    parseUri { copy := true, secret := true, decode := fun _ => true } numberedSecret = .ok numberedParams ∨
      ((∃ reason, parseUri { copy := true, secret := true, decode := fun _ => true } numberedSecret = .error reason) ∧
        (true = false ∨ true = false ∨ ∃ size, (fun _ => true : Nat → Bool) size = false)) := by
  refine uri_is_read { copy := true, secret := true, decode := fun _ => true } numberedSecret numberedParams
    (literal "Example:alice")
    [(literal "secret", literal "GEZDGNBVGY3TQOJQGEZDGNBVGY3TQOJQ"), (literal "digits", literal "8")] ?_ (by decide)
      (by decide +kernel) (by decide) (by decide)
  have letters : Base32.encode numberedParams.secret = literal "GEZDGNBVGY3TQOJQGEZDGNBVGY3TQOJQ" := by decide +kernel
  exact {
    plain := fun field inside => ⟨by revert field; decide, by revert field; decide⟩
    once := by decide
    secret := ⟨_, List.mem_cons_self, letters ▸ .same _⟩
    digits := .inl (by decide)
    period := .inr (by decide)
    counter := .inr (by decide)
    digest := .inr (by decide) }

end Hiya.Pm.Otp
