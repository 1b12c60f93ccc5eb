import Hiya.Cbor.Decoder
import Hiya.Library.Runs
import Hiya.Library.Text

/-! The CBOR encoder of `bio_cbor_encoder.c`: shortest heads, definite lengths, a
fixed output capacity and a bounded stack of open containers. -/

namespace Hiya.Cbor
open Library

/-- An open container: how many items it announced and how many were written. -/
structure Frame where
  count : Nat
  written : Nat
  deriving DecidableEq, Repr

/-- The write offset is the length of `buf`; the innermost container is the head
of `stack`, whose length is the source's `depth`. -/
structure Encoder where
  buf : Bytes
  capacity : Nat
  error : Bool
  stack : List Frame
  deriving DecidableEq, Repr

namespace Encoder

def init (capacity : Nat) : Encoder := { buf := [], capacity, error := false, stack := [] }

def depth (enc : Encoder) : Nat := enc.stack.length

def len (enc : Encoder) : Nat := if enc.error then 0 else enc.buf.length

def append (bytes : Bytes) (enc : Encoder) : Encoder := { enc with buf := enc.buf ++ bytes }

def setError (enc : Encoder) : Encoder := { enc with error := true }

def setStack (stack : List Frame) (enc : Encoder) : Encoder := { enc with stack }

end Encoder

abbrev Encode := Proc Encoder Error

def encFail {α : Type} (problem : Error) : Encode α := do
  Proc.modify Encoder.setError
  Proc.fail problem

def encWrite (bytes : Bytes) : Encode Unit := do
  let enc ← Proc.get
  if enc.error then Proc.fail .overflow
  else if enc.buf.length + bytes.length > enc.capacity then encFail .overflow
  else Proc.modify (Encoder.append bytes)

def encHead (major : Major) (value : Nat) : Encode Unit :=
  let typeBits := major.code <<< 5
  if value ≤ 23 then encWrite [typeBits ||| UInt8.ofNat value]
  else if value ≤ 0xFF then do
    encWrite [typeBits ||| 24]
    encWrite (beBytes 1 value)
  else if value ≤ 0xFFFF then do
    encWrite [typeBits ||| 25]
    encWrite (beBytes 2 value)
  else if value ≤ 0xFFFFFFFF then do
    encWrite [typeBits ||| 26]
    encWrite (beBytes 4 value)
  else do
    encWrite [typeBits ||| 27]
    encWrite (beBytes 8 value)

/-- Count one finished item. A container that is now full closes and counts as an
item of its parent. -/
def trackItem : List Frame → List Frame
  | [] => []
  | frame :: below =>
    if frame.written + 1 ≥ frame.count then trackItem below
    else { frame with written := frame.written + 1 } :: below

def encTrackItem : Encode Unit := Proc.modify fun enc => enc.setStack (trackItem enc.stack)

def encodeUint (value : UInt64) : Encode Unit := do
  encHead .uint value.toNat
  encTrackItem

def encodeNegint (value : UInt64) : Encode Unit := do
  encHead .negint value.toNat
  encTrackItem

def encodeInt (value : Int) : Encode Unit :=
  if value ≥ 0 then encodeUint (UInt64.ofInt value)
  else encodeNegint (UInt64.ofInt (-(value + 1)))

def encodeString (major : Major) (data : Bytes) : Encode Unit := do
  encHead major data.length
  if data.length > 0 then encWrite data
  encTrackItem

def encodeBstr (data : Bytes) : Encode Unit := encodeString .bstr data

def encodeTstr (data : Bytes) : Encode Unit := encodeString .tstr data

/-- The largest `size_t`. -/
def countMax : Nat := 2 ^ 64 - 1

/-- Open a container of `items` items. An empty one is complete at once. Only a map
can ask for more items than a `size_t` counts. -/
def encodeContainer (major : Major) (count items : Nat) : Encode Unit := do
  let enc ← Proc.get
  if enc.depth ≥ maxDepth ∨ items > countMax then encFail .nesting
  else do
    encHead major count
    if count = 0 then encTrackItem
    else Proc.modify fun enc => enc.setStack ({ count := items, written := 0 } :: enc.stack)

def encodeArray (count : Nat) : Encode Unit := encodeContainer .array count count

def encodeMap (count : Nat) : Encode Unit := encodeContainer .map count (count * 2)

/-- A tag is not an item of its container; the tagged value is. -/
def encodeTag (value : UInt64) : Encode Unit := encHead .tag value.toNat

def encodeBool (value : Bool) : Encode Unit := do
  encHead .simple (if value then trueValue else falseValue).toNat
  encTrackItem

def encodeNull : Encode Unit := do
  encHead .simple nullValue.toNat
  encTrackItem

def encodeUndefined : Encode Unit := do
  encHead .simple undefinedValue.toNat
  encTrackItem

/-- The values 24 to 31 are reserved; a larger one has a byte of its own. -/
def reservedSimple (value : UInt8) : Bool := 24 ≤ value ∧ value ≤ 31

def encodeSimple (value : UInt8) : Encode Unit :=
  if reservedSimple value then Proc.fail .invalid
  else if value ≤ 23 then do
    encHead .simple value.toNat
    encTrackItem
  else do
    encWrite [0xF8]
    encWrite [value]
    encTrackItem

inductive Slice
  | null (len : UInt64)
  | bytes (data : Bytes)

inductive Call
  | uint (value : UInt64)
  | negint (value : UInt64)
  | int (value : Int64)
  | bstr (data : Slice)
  | tstr (str : Slice)
  | tstrZ (str : Option Bytes)
  | array (count : UInt64)
  | map (count : UInt64)
  | tag (value : UInt64)
  | bool (value : Bool)
  | null
  | undefined
  | simple (value : UInt8)
  | float (bits : UInt32)
  | double (bits : UInt64)

/-- The checks of the arguments come before the encoder is looked at. Nothing is fine
behind a null pointer. -/
def Call.refused : Call → Bool
  | .bstr (.null len) | .tstr (.null len) => 0 < len
  | .tstrZ none => true
  | .simple value => reservedSimple value
  | _ => false

/-- `bio_cbor_encode_bstr` and `bio_cbor_encode_tstr` with the pointer they are given. -/
def encodeSlice (major : Major) : Slice → Encode Unit
  | .null len => if 0 < len then Proc.fail .invalid else encodeString major []
  | .bytes data => encodeString major data

def encodeTstrZ : Option Bytes → Encode Unit
  | none => Proc.fail .invalid
  | some str => encodeTstr (cString str)

/-- The bits of a float are written as they are. -/
def encodeFloat (bits : UInt32) : Encode Unit := do
  encWrite [0xFA]
  encWrite (beBytes 4 bits.toNat)
  encTrackItem

def encodeDouble (bits : UInt64) : Encode Unit := do
  encWrite [0xFB]
  encWrite (beBytes 8 bits.toNat)
  encTrackItem

def Call.encode : Call → Encode Unit
  | .uint value => encodeUint value
  | .negint value => encodeNegint value
  | .int value => encodeInt value.toInt
  | .bstr data => encodeSlice .bstr data
  | .tstr str => encodeSlice .tstr str
  | .tstrZ str => encodeTstrZ str
  | .array count => encodeArray count.toNat
  | .map count => encodeMap count.toNat
  | .tag value => encodeTag value
  | .bool value => encodeBool value
  | .null => encodeNull
  | .undefined => encodeUndefined
  | .simple value => encodeSimple value
  | .float bits => encodeFloat bits
  | .double bits => encodeDouble bits

/-- Nothing stops a caller from going on after a failure. -/
def encoderCalls : Machine Encoder Call (Except Error Unit) where
  step call enc := call.encode enc
  halts _ := false

end Hiya.Cbor
