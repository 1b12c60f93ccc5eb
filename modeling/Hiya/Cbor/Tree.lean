import Hiya.Cbor.Encoder

/-! Whole values. The library has no type for them: a caller writes a value with one
call after the other, and reads it back item by item. -/

namespace Hiya.Cbor
open Library

abbrev Simple := { value : UInt8 // reservedSimple value = false }

inductive Tree
  | uint (value : UInt64)
  /-- The integer `-1 - value`. -/
  | negint (value : UInt64)
  | bstr (data : Bytes)
  | tstr (data : Bytes)
  | array (items : List Tree)
  | map (pairs : List (Tree × Tree))
  | tag (number : UInt64) (item : Tree)
  | simple (value : Simple)

mutual

def encodeTree : Tree → Encode Unit
  | .uint value => encodeUint value
  | .negint value => encodeNegint value
  | .bstr data => encodeBstr data
  | .tstr data => encodeTstr data
  | .array items => do
    encodeArray items.length
    encodeTrees items
  | .map pairs => do
    encodeMap pairs.length
    encodePairs pairs
  | .tag number item => do
    encodeTag number
    encodeTree item
  | .simple value => encodeSimple value.val

def encodeTrees : List Tree → Encode Unit
  | [] => pure ()
  | item :: rest => do
    encodeTree item
    encodeTrees rest

def encodePairs : List (Tree × Tree) → Encode Unit
  | [] => pure ()
  | (key, value) :: rest => do
    encodeTree key
    encodeTree value
    encodePairs rest

end

/-- As many values as a container has announced. -/
def collect {α : Type} (count : Nat) (body : Decode α) : Decode (List α) :=
  Proc.repeatWith count (fun read => do pure (read ++ [← body])) []

/-- What becomes of an item, given how to read the values inside it. A negative integer
is what the item shows as its signed value; floats are no part of these values. -/
def readItem (inner : Decode Tree) : Item → Decode Tree
  | .uint value => pure (.uint value)
  | .negint value => pure (.negint (UInt64.ofInt (-1 - value)))
  | .bstr data => pure (.bstr data)
  | .tstr data => pure (.tstr data)
  | .array count => do pure (.array (← collect count inner))
  | .map count => do
    pure (.map (← collect count (do
      let key ← inner
      let value ← inner
      pure (key, value))))
  | .tag number => do pure (.tag number (← inner))
  | .simple value => if plain : reservedSimple value = false then pure (.simple ⟨value, plain⟩) else Proc.fail .invalid
  | _ => Proc.fail .unexpectedType

/-- Read a value of at most `levels` levels. -/
def readLevels : Nat → Decode Tree
  | 0 => Proc.fail .nesting
  | levels + 1 => decodeNext >>= readItem (readLevels levels)

/-- Every level has a byte of its own, so there are no more of them than bytes. -/
def readTree : Decode Tree := do
  let dec ← Proc.get
  readLevels dec.remaining

end Hiya.Cbor
