import Hiya.Cbor.Encoder
import Hiya.Library.Sorting

/-! The two functions that walk over an encoded item, down to the bytes they fetch. The
decoder hands out pointers after a look at the size; `bio_cbor_ctap2.c` has pointers of
its own. To fetch a byte that is not in the buffer is a fault. -/

namespace Hiya.Cbor.Raw
open Library

inductive Halt
  | code (problem : Error)
  | invalidParam
  | fault
  deriving DecidableEq, Repr

def fetch (data : Bytes) (place : Nat) : Except Halt UInt8 :=
  match data[place]? with
  | some byte => .ok byte
  | none => .error .fault

/-- The bytes from a place on, in big-endian order. -/
def fetchBe (data : Bytes) : Nat → Nat → Nat → Except Halt Nat
  | _, 0, value => .ok value
  | place, width + 1, value => do
    let byte ← fetch data place
    fetchBe data (place + 1) width (value * 256 + byte.toNat)

abbrev Walk := Proc Decoder Halt

def ofExcept {α : Type} : Except Halt α → Walk α
  | .ok value => pure value
  | .error halt => Proc.fail halt

def decFail {α : Type} (problem : Error) : Walk α := do
  Proc.modify Decoder.setError
  Proc.fail (.code problem)

/-- The place of the next bytes, if there are as many. -/
def decRead (count : Nat) : Walk Nat := do
  let dec ← Proc.get
  if dec.error then Proc.fail (.code .invalid)
  else if dec.offset + count > dec.data.length then decFail .invalid
  else do
    Proc.modify (Decoder.advance count)
    pure dec.offset

def decReadBe (width : Nat) : Walk UInt64 := do
  let place ← decRead width
  let dec ← Proc.get
  let value ← ofExcept (fetchBe dec.data place width 0)
  pure (UInt64.ofNat value)

def decHead : Walk Head := do
  let head := UInt8.ofNat (← decReadBe 1).toNat
  let major := Major.ofHead head
  let additional := head &&& 0x1F
  if additional ≤ 23 then pure { major, additional, argument := additional.toUInt64 }
  else if additional = 24 then do pure { major, additional, argument := ← decReadBe 1 }
  else if additional = 25 then do pure { major, additional, argument := ← decReadBe 2 }
  else if additional = 26 then do pure { major, additional, argument := ← decReadBe 4 }
  else if additional = 27 then do pure { major, additional, argument := ← decReadBe 8 }
  else decFail .invalid

/-- What the walk looks at in an item. A string is passed over like a number, and
nothing of it is fetched. -/
inductive Shape
  | scalar
  | array (count : Nat)
  | map (count : Nat)
  | tag
  deriving DecidableEq, Repr

def decString (length : Nat) : Walk Shape := do
  let dec ← Proc.get
  if length > dec.remaining then decFail .invalid
  else do
    Proc.modify (Decoder.advance length)
    pure .scalar

def decContainer (items : Nat) (shape : Shape) : Walk Shape := do
  let dec ← Proc.get
  if items > dec.remaining then decFail .invalid else pure shape

def decodeNext : Walk Shape := do
  let head ← decHead
  let argument := head.argument.toNat
  match head.major with
  | .bstr => decString argument
  | .tstr => decString argument
  | .array => decContainer argument (.array argument)
  | .map => decContainer (argument * 2) (.map argument)
  | .tag => pure .tag
  | _ => pure .scalar

def skipItemDepth : Nat → Walk Unit
  | 0 => decFail .nesting
  | room + 1 => do
    match ← decodeNext with
    | .array count => Proc.repeatWith count (fun _ => skipItemDepth room) ()
    | .map count => Proc.repeatWith count (fun _ => do skipItemDepth room; skipItemDepth room) ()
    | .tag => skipItemDepth room
    | _ => pure ()

def skip : Walk Unit := skipItemDepth (maxDepth + 1)

/-- What `bio_cbor_decode_head_raw` returns and stores. -/
structure RawHead where
  size : Nat
  major : Major
  value : Nat
  deriving DecidableEq, Repr

def decodeHeadRaw (data : Bytes) (size : Nat) : Except Halt (Option RawHead) :=
  if size = 0 then .ok none
  else do
    let head ← fetch data 0
    let major := Major.ofHead head
    let additional := head &&& 0x1F
    let wide (width : Nat) : Except Halt (Option RawHead) :=
      if size < width + 1 then .ok none
      else do pure (some { size := width + 1, major, value := ← fetchBe data 1 width 0 })
    if additional ≤ 23 then .ok (some { size := 1, major, value := additional.toNat })
    else if additional = 24 then wide 1
    else if additional = 25 then wide 2
    else if additional = 26 then wide 4
    else if additional = 27 then wide 8
    else .ok none

/-- Add up the sizes of `count` items, from the offset `total` on. -/
def sizeItems (child : Bytes → Nat → Except Halt Nat) (data : Bytes) (len : Nat) : Nat → Nat → Except Halt Nat
  | 0, total => .ok total
  | count + 1, total =>
    if total ≥ len then .error (.code .invalid)
    else do
      let size ← child (data.drop total) (len - total)
      sizeItems child data len count (total + size)

/-- The size of a float, or else of the head of a simple value. -/
def floatSize (additional : UInt8) (headSize : Nat) : Nat :=
  if additional = 25 then 3
  else if additional = 26 then 5
  else if additional = 27 then 9
  else headSize

/-- A simple value or a float, after a second look at its head. -/
def simpleSize (data : Bytes) (len headSize : Nat) : Except Halt Nat := do
  let head ← fetch data 0
  let size := floatSize (head &&& 0x1F) headSize
  if size > len then .error (.code .invalid) else .ok size

/-- The size of the item at `data`, of which `len` bytes may be used. The source counts
`depth` upwards to its limit; `room` is what is left of it. -/
def itemEncodedSizeDepth : Nat → Bytes → Nat → Except Halt Nat
  | 0, _, _ => .error (.code .nesting)
  | room + 1, data, len =>
    if len = 0 then .error .invalidParam
    else do
      match ← decodeHeadRaw data len with
      | none => .error (.code .invalid)
      | some head =>
        let string : Except Halt Nat :=
          if head.value > countMax - head.size ∨ head.size + head.value > len then .error (.code .invalid)
          else .ok (head.size + head.value)
        match head.major with
        | .uint => .ok head.size
        | .negint => .ok head.size
        | .bstr => string
        | .tstr => string
        | .tag => do pure (head.size + (← itemEncodedSizeDepth room (data.drop head.size) (len - head.size)))
        | .array => sizeItems (itemEncodedSizeDepth room) data len head.value head.size
        | .map =>
          if head.value > countMax / 2 then .error (.code .invalid)
          else sizeItems (itemEncodedSizeDepth room) data len (head.value * 2) head.size
        | .simple => simpleSize data len head.size

def maxSizeDepth : Nat := 32

def itemEncodedSize (data : Bytes) (len : Nat) : Except Halt Nat := itemEncodedSizeDepth (maxSizeDepth + 1) data len

def bytesAt (data : Bytes) (place count : Nat) : Bytes := (List.range' place count).map fun place => data.getD place 0

/-- `memcmp` between two places of the buffer. -/
def memcmp (data : Bytes) : Nat → Nat → Nat → Int
  | _, _, 0 => 0
  | first, second, count + 1 =>
    if data.getD first 0 = data.getD second 0 then memcmp data (first + 1) (second + 1) count
    else (data.getD first 0).toNat - (data.getD second 0).toNat

/-- `cbor_kv_pair_t`, with its pointers as places in the buffer. -/
structure KvPair where
  keyData : Nat
  keyLen : Nat
  valData : Nat
  valLen : Nat
  deriving DecidableEq, Repr

def ctap2KeyCompare (data : Bytes) (first second : KvPair) : Int :=
  if first.keyLen < second.keyLen then -1
  else if first.keyLen > second.keyLen then 1
  else memcmp data first.keyData second.keyData first.keyLen

inductive SortProblem
  | halt (halt : Halt)
  | noMem
  deriving DecidableEq, Repr

/-- Whether there is memory for the descriptors, and for the new body. -/
structure SortMemory where
  pairs : Bool
  body : Bool

/-- The descriptors of the pairs from a place on, and the place behind them. -/
def readPairs (data : Bytes) : Nat → Nat → Except Halt (List KvPair × Nat)
  | 0, pos => .ok ([], pos)
  | count + 1, pos => do
    let keyLen ← itemEncodedSize (data.drop pos) (data.length - pos)
    let valLen ← itemEncodedSize (data.drop (pos + keyLen)) (data.length - (pos + keyLen))
    let (pairs, last) ← readPairs data count (pos + keyLen + valLen)
    pure ({ keyData := pos, keyLen, valData := pos + keyLen, valLen } :: pairs, last)

def appendPair (data body : Bytes) (pair : KvPair) : Bytes :=
  body ++ bytesAt data pair.keyData pair.keyLen ++ bytesAt data pair.valData pair.valLen

def maxSortedPairs : Nat := 256

/-- `bio_cbor_sort_map_ctap2`, and the buffer after it. -/
def sortMapCtap2 (qsort : Sorter KvPair) (memory : SortMemory) (data : Bytes) : Except SortProblem Unit × Bytes :=
  if data.length = 0 then (.error (.halt .invalidParam), data)
  else
    match decodeHeadRaw data data.length with
    | .error halt => (.error (.halt halt), data)
    | .ok none => (.error (.halt (.code .invalid)), data)
    | .ok (some head) =>
      if head.major ≠ .map then (.error (.halt (.code .invalid)), data)
      else if head.value = 0 then (.ok (), data)
      else if head.value > maxSortedPairs then (.error (.halt (.code .invalid)), data)
      else if memory.pairs = false then (.error .noMem, data)
      else
        match readPairs data head.value head.size with
        | .error halt => (.error (.halt halt), data)
        | .ok (pairs, pos) =>
          if memory.body = false then (.error .noMem, data)
          else
            let sorted := (qsort.sort (ctap2KeyCompare data) pairs).foldl (appendPair data) []
            (.ok (), data.take head.size ++ sorted.take (pos - head.size) ++ data.drop pos)

end Hiya.Cbor.Raw
