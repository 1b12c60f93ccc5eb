import Hiya.Cbor.Encoder

/-! What the decoder reads from a given string of bytes, whatever follows them.
Every rule is about the decoder's own functions; later proofs compose the rules
and never look at the cursor again. -/

namespace Hiya.Cbor
open Library

variable {ε ε' α β : Type}

namespace Decoder

theorem advance_zero (dec : Decoder) : dec.advance 0 = dec := rfl

theorem advance_advance (dec : Decoder) (first second : Nat) :
    (dec.advance first).advance second = dec.advance (first + second) := by
  simp [advance, Nat.add_assoc]

theorem rest_advance {dec : Decoder} {bytes rest : Bytes} (here : dec.rest = bytes ++ rest) :
    (dec.advance bytes.length).rest = rest := by
  have dropped := congrArg (List.drop bytes.length) here
  simpa [Decoder.rest, advance, List.drop_drop, Nat.add_comm] using dropped

theorem remaining_eq (dec : Decoder) : dec.remaining = dec.rest.length := by
  simp [remaining, rest]

theorem offset_le {dec : Decoder} {bytes rest : Bytes} (here : dec.rest = bytes ++ rest) (nonempty : bytes ≠ []) :
    dec.offset + bytes.length ≤ dec.data.length := by
  have lengths := congrArg List.length here
  simp only [Decoder.rest, List.length_drop, List.length_append] at lengths
  have positive := List.length_pos_iff.mpr nonempty
  omega

end Decoder

def Reads (body : Proc Decoder ε α) (bytes : Bytes) (value : α) : Prop :=
  ∀ dec rest, dec.error = false → dec.rest = bytes ++ rest →
    body dec = (.ok value, dec.advance bytes.length)

namespace Reads

protected theorem pure (value : α) : Reads (pure value : Proc Decoder ε α) [] value :=
  fun _ _ _ _ => rfl

protected theorem bind {first : Proc Decoder ε α} {next : α → Proc Decoder ε β} {head tail : Bytes}
    {value : α} {result : β} (start : Reads first head value) (continues : Reads (next value) tail result) :
    Reads (first >>= next) (head ++ tail) result := by
  intro dec rest clear here
  rw [List.append_assoc] at here
  rw [Proc.bind_of_ok (start dec _ clear here),
    continues (dec.advance head.length) rest clear (Decoder.rest_advance here),
    Decoder.advance_advance, List.length_append]

/-- The first part consumes everything; what follows only looks at its value. -/
protected theorem andThen {first : Proc Decoder ε α} {next : α → Proc Decoder ε β} {bytes : Bytes}
    {value : α} {result : β} (start : Reads first bytes value) (continues : Reads (next value) [] result) :
    Reads (first >>= next) bytes result := by
  simpa using start.bind continues

protected theorem map {body : Proc Decoder ε α} {bytes : Bytes} {value : α} (change : α → β)
    (start : Reads body bytes value) : Reads (body >>= fun result => pure (change result)) bytes (change value) :=
  start.andThen (.pure _)

protected theorem orFail {body : Proc Decoder ε α} {bytes : Bytes} {value : α} {problem : ε'}
    (start : Reads body bytes value) : Reads (body.orFail problem) bytes value :=
  fun dec rest clear here => Proc.orFail_eq_ok.mpr (start dec rest clear here)

protected theorem ignore {body : Proc Decoder ε α} {bytes : Bytes} {value : α} (start : Reads body bytes value) :
    Reads (body.ignore : Proc Decoder ε' Unit) bytes () := by
  intro dec rest clear here
  unfold Proc.ignore
  rw [start dec rest clear here]

protected theorem withDefault {body : Proc Decoder ε α} {bytes : Bytes} {value fallback : α}
    (start : Reads body bytes value) :
    Reads (body.withDefault fallback : Proc Decoder ε' α) bytes value := by
  intro dec rest clear here
  unfold Proc.withDefault
  rw [start dec rest clear here]

/-- One more round of a loop that stops at a failure. -/
protected theorem round {body : α → Proc Decoder ε α} {count : Nat} {head tail : Bytes} {acc next result : α}
    (start : Reads (body acc) head next) (continues :
    Reads (Proc.repeatTill count body next : Proc Decoder ε' α) tail result) :
    Reads (Proc.repeatTill (count + 1) body acc : Proc Decoder ε' α) (head ++ tail) result := by
  intro dec rest clear here
  rw [List.append_assoc] at here
  unfold Proc.repeatTill
  rw [start dec _ clear here]
  dsimp only
  rw [continues (dec.advance head.length) rest clear (Decoder.rest_advance here), Decoder.advance_advance, List.length_append]

protected theorem rounds {body : α → Proc Decoder ε α} (acc : α) :
    Reads (Proc.repeatTill 0 body acc : Proc Decoder ε' α) [] acc :=
  .pure acc

end Reads

/-- Like `Reads`, for a computation that also insists on `need` bytes after what
it consumes: a container head does so for the items it announces. -/
def ReadsAhead (need : Nat) (body : Proc Decoder ε α) (bytes : Bytes) (value : α) : Prop :=
  ∀ dec rest, dec.error = false → dec.rest = bytes ++ rest → need ≤ rest.length →
    body dec = (.ok value, dec.advance bytes.length)

namespace ReadsAhead

protected theorem bind {need : Nat} {first : Proc Decoder ε α} {next : α → Proc Decoder ε β}
    {head tail : Bytes} {value : α} {result : β} (start : ReadsAhead need first head value)
    (enough : need ≤ tail.length) (continues : Reads (next value) tail result) :
    Reads (first >>= next) (head ++ tail) result := by
  intro dec rest clear here
  rw [List.append_assoc] at here
  have room : need ≤ (tail ++ rest).length := by
    rw [List.length_append]
    omega
  rw [Proc.bind_of_ok (start dec _ clear here room),
    continues (dec.advance head.length) rest clear (Decoder.rest_advance here),
    Decoder.advance_advance, List.length_append]

protected theorem orFail {need : Nat} {body : Proc Decoder ε α} {bytes : Bytes} {value : α} {problem : ε'}
    (start : ReadsAhead need body bytes value) : ReadsAhead need (body.orFail problem) bytes value :=
  fun dec rest clear here room => Proc.orFail_eq_ok.mpr (start dec rest clear here room)

end ReadsAhead

theorem reads_decRead (bytes : Bytes) (nonempty : bytes ≠ []) : Reads (decRead bytes.length) bytes bytes := by
  intro dec rest clear here
  have room := Decoder.offset_le here nonempty
  have taken : dec.rest.take bytes.length = bytes := by simp [here]
  simp only [decRead, Proc.bind_apply, Proc.get_apply, clear, Bool.false_eq_true, if_false, taken,
    if_neg (Nat.not_lt.mpr room), Proc.modify_apply, Proc.pure_apply]

theorem reads_decReadBe (width value : Nat) (positive : 0 < width) :
    Reads (decReadBe width) (beBytes width value) (UInt64.ofNat (value % 256 ^ width)) := by
  have nonempty : beBytes width value ≠ [] := List.length_pos_iff.mp (by simpa using positive)
  have read := (reads_decRead (beBytes width value) nonempty).map fun bytes => UInt64.ofNat (beNat bytes)
  rw [beBytes_length, beNat_beBytes] at read
  exact read

def additionalOf (value : Nat) : UInt8 :=
  if value ≤ 23 then UInt8.ofNat value
  else if value ≤ 0xFF then 24
  else if value ≤ 0xFFFF then 25
  else if value ≤ 0xFFFFFFFF then 26
  else 27

def argumentBytes (value : Nat) : Bytes :=
  if value ≤ 23 then []
  else if value ≤ 0xFF then beBytes 1 value
  else if value ≤ 0xFFFF then beBytes 2 value
  else if value ≤ 0xFFFFFFFF then beBytes 4 value
  else beBytes 8 value

def headBytes (major : Major) (value : Nat) : Bytes :=
  ((major.code <<< 5) ||| additionalOf value) :: argumentBytes value

theorem headBytes_ne_nil (major : Major) (value : Nat) : headBytes major value ≠ [] :=
  List.cons_ne_nil _ _

private theorem head_fields_table :
    ∀ additional : Fin 32, ∀ major ∈ [Major.uint, .negint, .bstr, .tstr, .array, .map, .tag, .simple],
      Major.ofHead ((major.code <<< 5) ||| UInt8.ofNat additional.val) = major ∧
        ((major.code <<< 5) ||| UInt8.ofNat additional.val) &&& 0x1F = UInt8.ofNat additional.val := by
  decide

theorem head_fields (major : Major) {additional : Nat} (small : additional < 32) :
    Major.ofHead ((major.code <<< 5) ||| UInt8.ofNat additional) = major ∧
      ((major.code <<< 5) ||| UInt8.ofNat additional) &&& 0x1F = UInt8.ofNat additional :=
  head_fields_table ⟨additional, small⟩ major (by cases major <;> decide)


theorem additionalOf_eq (value : Nat) : ∃ additional < 28, additionalOf value = UInt8.ofNat additional := by
  unfold additionalOf
  split
  next small => exact ⟨value, by omega, rfl⟩
  split
  · exact ⟨24, by omega, rfl⟩
  split
  · exact ⟨25, by omega, rfl⟩
  split
  · exact ⟨26, by omega, rfl⟩
  · exact ⟨27, by omega, rfl⟩

def decArgument (head : UInt8) : Decode Head :=
  let major := Major.ofHead head
  let additional := head &&& 0x1F
  if additional ≤ 23 then pure { major, additional, argument := additional.toUInt64 }
  else match additional with
    | 24 => do pure { major, additional, argument := ← decReadBe 1 }
    | 25 => do pure { major, additional, argument := ← decReadBe 2 }
    | 26 => do pure { major, additional, argument := ← decReadBe 4 }
    | 27 => do pure { major, additional, argument := ← decReadBe 8 }
    | _ => decFail .invalid

theorem decHead_eq : decHead = decRead 1 >>= fun bytes => decArgument (UInt8.ofNat (beNat bytes)) := rfl

private theorem reads_argument (major : Major) (value : Nat) (small : value < 2 ^ 64) :
    Reads (decArgument ((major.code <<< 5) ||| additionalOf value)) (argumentBytes value)
      { major, additional := additionalOf value, argument := UInt64.ofNat value } := by
  obtain ⟨additional, bound, same⟩ := additionalOf_eq value
  obtain ⟨isMajor, isAdditional⟩ := head_fields major (by omega : additional < 32)
  rw [← same] at isMajor isAdditional
  simp only [decArgument, isMajor, isAdditional]
  unfold additionalOf argumentBytes
  split
  next tiny =>
    have le : UInt8.ofNat value ≤ 23 := by
      rw [UInt8.le_iff_toNat_le, UInt8.toNat_ofNat']
      have : (23 : UInt8).toNat = 23 := rfl
      omega
    have wide : (UInt8.ofNat value).toUInt64 = UInt64.ofNat value := by
      apply UInt64.toNat_inj.mp
      simp
      omega
    rw [if_pos le, wide]
    exact .pure _
  split
  · have read := reads_decReadBe 1 value (by omega)
    rw [Nat.mod_eq_of_lt (by omega)] at read
    exact read.map _
  split
  · have read := reads_decReadBe 2 value (by omega)
    rw [Nat.mod_eq_of_lt (by omega)] at read
    exact read.map _
  split
  · have read := reads_decReadBe 4 value (by omega)
    rw [Nat.mod_eq_of_lt (by omega)] at read
    exact read.map _
  · have read := reads_decReadBe 8 value (by omega)
    rw [Nat.mod_eq_of_lt (by omega)] at read
    exact read.map _

theorem reads_decHead (major : Major) (value : Nat) (small : value < 2 ^ 64) :
    Reads decHead (headBytes major value)
      { major, additional := additionalOf value, argument := UInt64.ofNat value } := by
  have byte (head : UInt8) : UInt8.ofNat (beNat [head]) = head := by simp [beNat]
  have first := reads_decRead [(major.code <<< 5) ||| additionalOf value] (List.cons_ne_nil _ _)
  rw [decHead_eq]
  refine Reads.bind first ?_
  simp only [byte]
  exact reads_argument major value small

def decodeItem (head : Head) : Decode Item :=
  match head.major with
  | .uint => pure (.uint head.argument)
  | .negint =>
    pure (.negint (if head.argument.toNat ≤ int64Max then -1 - (head.argument.toNat : Int) else int64Min))
  | .bstr => do pure (.bstr (← decString head.argument.toNat))
  | .tstr => do pure (.tstr (← decString head.argument.toNat))
  | .array => do pure (.array (← decContainer head.argument.toNat head.argument.toNat))
  | .map => do pure (.map (← decContainer head.argument.toNat (head.argument.toNat * 2)))
  | .tag => pure (.tag head.argument)
  | .simple =>
    if head.additional ≤ 24 then pure (.simple head.argument.toUInt8)
    else if head.additional = 25 then pure (.single (halfToSingle head.argument.toUInt32))
    else if head.additional = 26 then pure (.single head.argument.toUInt32)
    else pure (.double head.argument)

theorem decodeNext_eq : decodeNext = decHead >>= decodeItem := rfl

theorem reads_decString (data : Bytes) : Reads (decString data.length) data data := by
  intro dec rest clear here
  have room : ¬data.length > dec.remaining := by
    rw [Decoder.remaining_eq, here, List.length_append]
    omega
  have taken : dec.rest.take data.length = data := by simp [here]
  simp only [decString, Proc.bind_apply, Proc.get_apply, if_neg room, taken, Proc.modify_apply, Proc.pure_apply]

theorem readsAhead_decContainer (count items : Nat) : ReadsAhead items (decContainer count items) [] count := by
  intro dec rest clear here room
  have fits : ¬items > dec.remaining := by
    rw [Decoder.remaining_eq, here, List.nil_append]
    omega
  simp only [decContainer, Proc.bind_apply, Proc.get_apply, if_neg fits, Proc.pure_apply, List.length_nil,
    Decoder.advance_zero]

/-- What follows the head of a container: its announced items are there. -/
theorem reads_counted {count items : Nat} {next : Nat → Decode β} {bytes : Bytes} {value : β} (few : items ≤ bytes.length)
    (reads : Reads (next count) bytes value) : Reads (decContainer count items >>= next) bytes value := by
  have whole := (readsAhead_decContainer count items).bind few reads
  rwa [List.nil_append] at whole

theorem toNat_ofNat {value : Nat} (small : value < 2 ^ 64) : (UInt64.ofNat value).toNat = value := by
  rw [UInt64.toNat_ofNat', Nat.mod_eq_of_lt small]

theorem reads_nextUint (value : UInt64) : Reads decodeNext (headBytes .uint value.toNat) (.uint value) := by
  have head := reads_decHead .uint value.toNat value.toNat_lt
  rw [UInt64.ofNat_toNat] at head
  exact head.andThen (.pure _)

theorem reads_nextBstr (data : Bytes) (small : data.length < 2 ^ 64) :
    Reads decodeNext (headBytes .bstr data.length ++ data) (.bstr data) := by
  refine (reads_decHead .bstr data.length small).bind ?_
  simp only [toNat_ofNat small]
  exact (reads_decString data).map _

theorem reads_nextTstr (data : Bytes) (small : data.length < 2 ^ 64) :
    Reads decodeNext (headBytes .tstr data.length ++ data) (.tstr data) := by
  refine (reads_decHead .tstr data.length small).bind ?_
  simp only [toNat_ofNat small]
  exact (reads_decString data).map _

theorem reads_uint (value : UInt64) : Reads decodeUint (headBytes .uint value.toNat) value :=
  (reads_nextUint value).andThen (.pure _)

theorem reads_bstr (data : Bytes) (small : data.length < 2 ^ 64) :
    Reads decodeBstr (headBytes .bstr data.length ++ data) data :=
  (reads_nextBstr data small).andThen (.pure _)

theorem reads_tstr (data : Bytes) (small : data.length < 2 ^ 64) :
    Reads decodeTstr (headBytes .tstr data.length ++ data) data :=
  (reads_nextTstr data small).andThen (.pure _)

theorem reads_bool (value : Bool) :
    Reads decodeBool (headBytes .simple (if value then trueValue else falseValue).toNat) value := by
  cases value with
  | false =>
    have next : Reads decodeNext (headBytes .simple 20) (.simple falseValue) :=
      (reads_decHead .simple 20 (by omega)).andThen (.pure _)
    exact next.andThen (.pure _)
  | true =>
    have next : Reads decodeNext (headBytes .simple 21) (.simple trueValue) :=
      (reads_decHead .simple 21 (by omega)).andThen (.pure _)
    exact next.andThen (.pure _)

/-- A head read first leaves only the lookahead of the item after it. -/
private theorem readsAhead_head {need : Nat} {major : Major} {count : Nat} {body : Head → Proc Decoder ε α} {value : α}
    {first : Proc Decoder ε Head} {head : Head} (start : Reads first (headBytes major count) head)
    (ahead : ReadsAhead need (body head) [] value) :
    ReadsAhead need (first >>= body) (headBytes major count) value := by
  intro dec rest clear here room
  rw [Proc.bind_of_ok (start dec rest clear here)]
  exact ahead (dec.advance _) rest clear (by simpa using Decoder.rest_advance here) room

theorem readsAhead_array (count : Nat) (small : count < 2 ^ 64) :
    ReadsAhead count decodeArray (headBytes .array count) count := by
  have head := reads_decHead .array count small
  unfold decodeArray
  rw [decodeNext_eq, bind_assoc]
  apply readsAhead_head head
  intro dec rest clear here room
  simp only [decodeItem, toNat_ofNat small, bind_assoc]
  rw [Proc.bind_of_ok (readsAhead_decContainer count count dec rest clear here room)]
  rfl

theorem readsAhead_map (count : Nat) (small : count < 2 ^ 64) :
    ReadsAhead (count * 2) decodeMap (headBytes .map count) count := by
  have head := reads_decHead .map count small
  unfold decodeMap
  rw [decodeNext_eq, bind_assoc]
  apply readsAhead_head head
  intro dec rest clear here room
  simp only [decodeItem, toNat_ofNat small, bind_assoc]
  rw [Proc.bind_of_ok (readsAhead_decContainer count (count * 2) dec rest clear here room)]
  rfl

end Hiya.Cbor
