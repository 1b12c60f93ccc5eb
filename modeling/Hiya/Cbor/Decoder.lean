import Hiya.Library.Bytes
import Hiya.Library.Proc

/-! The cursor-based CBOR decoder of `bio_cbor_decoder.c`. Strings are slices of
the input. A malformed head sets the sticky error flag; an item of the wrong type
is consumed and reported without setting it. -/

namespace Hiya.Cbor
open Library

inductive Error
  | invalid
  | overflow
  | nesting
  | unexpectedType
  deriving DecidableEq, Repr

inductive Major
  | uint
  | negint
  | bstr
  | tstr
  | array
  | map
  | tag
  | simple
  deriving DecidableEq, Repr

namespace Major

def code : Major → UInt8
  | uint => 0
  | negint => 1
  | bstr => 2
  | tstr => 3
  | array => 4
  | map => 5
  | tag => 6
  | simple => 7

def ofHead (head : UInt8) : Major :=
  match (head >>> 5).toNat with
  | 0 => uint
  | 1 => negint
  | 2 => bstr
  | 3 => tstr
  | 4 => array
  | 5 => map
  | 6 => tag
  | _ => simple

end Major

def falseValue : UInt8 := 20
def trueValue : UInt8 := 21
def nullValue : UInt8 := 22
def undefinedValue : UInt8 := 23
def maxDepth : Nat := 16

/-- What `bio_cbor_decode_next` stores in the item union. Floats keep their bits. -/
inductive Item
  | uint (value : UInt64)
  | negint (value : Int)
  | bstr (data : Bytes)
  | tstr (data : Bytes)
  | array (count : Nat)
  | map (count : Nat)
  | tag (value : UInt64)
  | simple (value : UInt8)
  | single (bits : UInt32)
  | double (bits : UInt64)
  deriving DecidableEq, Repr

structure Decoder where
  data : Bytes
  offset : Nat
  error : Bool
  deriving DecidableEq, Repr

namespace Decoder

def init (data : Bytes) : Decoder := { data, offset := 0, error := false }

def rest (dec : Decoder) : Bytes := dec.data.drop dec.offset

def remaining (dec : Decoder) : Nat := dec.data.length - dec.offset

def atEnd (dec : Decoder) : Bool := dec.offset ≥ dec.data.length

def advance (count : Nat) (dec : Decoder) : Decoder := { dec with offset := dec.offset + count }

def setError (dec : Decoder) : Decoder := { dec with error := true }

end Decoder

abbrev Decode := Proc Decoder Error

/-- Fail and make every later read fail too. -/
def decFail {α : Type} (problem : Error) : Decode α := do
  Proc.modify Decoder.setError
  Proc.fail problem

def decRead (count : Nat) : Decode Bytes := do
  let dec ← Proc.get
  if dec.error then Proc.fail .invalid
  else if dec.offset + count > dec.data.length then decFail .invalid
  else do
    Proc.modify (Decoder.advance count)
    pure (dec.rest.take count)

def decReadBe (width : Nat) : Decode UInt64 := do
  let bytes ← decRead width
  pure (UInt64.ofNat (beNat bytes))

structure Head where
  major : Major
  additional : UInt8
  argument : UInt64

def decHead : Decode Head := do
  let head := UInt8.ofNat (beNat (← decRead 1))
  let major := Major.ofHead head
  let additional := head &&& 0x1F
  if additional ≤ 23 then pure { major, additional, argument := additional.toUInt64 }
  else match additional with
    | 24 => do pure { major, additional, argument := ← decReadBe 1 }
    | 25 => do pure { major, additional, argument := ← decReadBe 2 }
    | 26 => do pure { major, additional, argument := ← decReadBe 4 }
    | 27 => do pure { major, additional, argument := ← decReadBe 8 }
    -- 31 is the indefinite length, 28 to 30 are reserved
    | _ => decFail .invalid

/-- Shift a subnormal mantissa up to its leading bit; ten shifts always reach it. -/
def normalizeHalf : Nat → UInt32 → UInt32 → UInt32 × UInt32
  | 0, exponent, mantissa => (exponent, mantissa)
  | shifts + 1, exponent, mantissa =>
    if mantissa &&& 0x0400 = 0 then normalizeHalf shifts (exponent - 1) (mantissa <<< 1)
    else (exponent, mantissa)

def halfToSingle (half : UInt32) : UInt32 :=
  let sign := (half &&& 0x8000) <<< 16
  let exponent := (half >>> 10) &&& 0x1F
  let mantissa := half &&& 0x03FF
  if exponent = 0 then
    if mantissa = 0 then sign
    else
      let (exponent, mantissa) := normalizeHalf 10 1 mantissa
      sign ||| ((exponent + 127 - 15) <<< 23) ||| ((mantissa &&& 0x03FF) <<< 13)
  else if exponent = 31 then sign ||| (0x7F800000 : UInt32) ||| (mantissa <<< 13)
  else sign ||| ((exponent + 127 - 15) <<< 23) ||| (mantissa <<< 13)

/-- The body of a string: its stated length has to fit in the remaining input. -/
def decString (length : Nat) : Decode Bytes := do
  let dec ← Proc.get
  if length > dec.remaining then decFail .invalid
  else do
    Proc.modify (Decoder.advance length)
    pure (dec.rest.take length)

/-- A container may not announce more items than there are bytes left. -/
def decContainer (count items : Nat) : Decode Nat := do
  let dec ← Proc.get
  if items > dec.remaining then decFail .invalid else pure count

def int64Max : Nat := 2 ^ 63 - 1
def int64Min : Int := -9223372036854775808

def decodeNext : Decode Item := do
  let head ← decHead
  let argument := head.argument
  match head.major with
  | .uint => pure (.uint argument)
  | .negint => pure (.negint (if argument.toNat ≤ int64Max then -1 - (argument.toNat : Int) else int64Min))
  | .bstr => do pure (.bstr (← decString argument.toNat))
  | .tstr => do pure (.tstr (← decString argument.toNat))
  | .array => do pure (.array (← decContainer argument.toNat argument.toNat))
  | .map => do pure (.map (← decContainer argument.toNat (argument.toNat * 2)))
  | .tag => pure (.tag argument)
  | .simple =>
    if head.additional ≤ 24 then pure (.simple argument.toUInt8)
    else if head.additional = 25 then pure (.single (halfToSingle argument.toUInt32))
    else if head.additional = 26 then pure (.single argument.toUInt32)
    else pure (.double argument)

/-- Skip one item. `room` is how many nested levels are still allowed: the source
counts `depth` upwards and fails once it passes `maxDepth`. -/
def skipItemDepth : Nat → Decode Unit
  | 0 => decFail .nesting
  | room + 1 => do
    match ← decodeNext with
    | .array count => Proc.repeatWith count (fun _ => skipItemDepth room) ()
    | .map count => Proc.repeatWith count (fun _ => do skipItemDepth room; skipItemDepth room) ()
    | .tag _ => skipItemDepth room
    | _ => pure ()

def skip : Decode Unit := skipItemDepth (maxDepth + 1)

def decodeUint : Decode UInt64 := do
  match ← decodeNext with
  | .uint value => pure value
  | _ => Proc.fail .unexpectedType

def decodeInt : Decode Int := do
  match ← decodeNext with
  | .uint value => if value.toNat > int64Max then Proc.fail .overflow else pure (value.toNat : Int)
  | .negint value => pure value
  | _ => Proc.fail .unexpectedType

def decodeBstr : Decode Bytes := do
  match ← decodeNext with
  | .bstr data => pure data
  | _ => Proc.fail .unexpectedType

def decodeTstr : Decode Bytes := do
  match ← decodeNext with
  | .tstr data => pure data
  | _ => Proc.fail .unexpectedType

def decodeArray : Decode Nat := do
  match ← decodeNext with
  | .array count => pure count
  | _ => Proc.fail .unexpectedType

def decodeMap : Decode Nat := do
  match ← decodeNext with
  | .map count => pure count
  | _ => Proc.fail .unexpectedType

/-- A float leaves the simple value of its item at zero, so it is no Boolean. -/
def decodeBool : Decode Bool := do
  match ← decodeNext with
  | .simple value =>
    if value = trueValue then pure true
    else if value = falseValue then pure false
    else Proc.fail .unexpectedType
  | _ => Proc.fail .unexpectedType

/-- The loop over the pairs: whether the key was found. -/
def scanKeys (isKey : Item → Bool) : Nat → Decode Bool
  | 0 => pure false
  | count + 1 => do
    let item ← decodeNext
    if isKey item then pure true
    else do
      skip
      scanKeys isKey count

/-- `BIO_OK` is true, and `BIO_ERR_NOT_FOUND` is false. -/
def mapFindKey (isKey : Item → Bool) (count : Nat) : Decode Bool := do
  let dec ← Proc.get
  let found ← scanKeys isKey count
  if found then pure true
  else do
    Proc.modify fun last => { last with offset := dec.offset }
    pure false

def isUintKey (key : UInt64) : Item → Bool
  | .uint value => value = key
  | _ => false

def mapFindUintKey (count : Nat) (key : UInt64) : Decode Bool := mapFindKey (isUintKey key) count

def isTstrKey (key : Bytes) : Item → Bool
  | .tstr text => text.length = key.length && text = key
  | _ => false

def mapFindTstrKey (count : Nat) (key : Bytes) : Decode Bool := mapFindKey (isTstrKey key) count

end Hiya.Cbor
