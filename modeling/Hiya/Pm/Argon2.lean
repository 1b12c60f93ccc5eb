import Hiya.Library.Vec
import Hiya.Pm.Kdf

/-! The rest of the Argon2id derivation of `pm_kdf.c`: the hash of variable length, the
compression of blocks, and the loops that fill the memory. Hashing itself is a parameter.
The counters of the loops are small (a memory has at most 2^20 blocks), so they are
natural numbers; the arithmetic of `index_alpha` is in 32 bits, as the source has it. -/

namespace Hiya.Pm.Argon2
open Library

def blockWords : Nat := 128
def blockBytes : Nat := 1024
def syncPoints : Nat := 4

abbrev Block := Vec UInt64 blockWords

def rotr64 (x n : UInt64) : UInt64 := (x >>> n) ||| (x <<< (64 - n))

def blamka (x y : UInt64) : UInt64 := x + y + 2 * x.toUInt32.toUInt64 * y.toUInt32.toUInt64

/-- The macro `ARGON2_G` on four of the words. -/
def argon2G (i j k l : Nat) (x : Vec UInt64 16) : Vec UInt64 16 :=
  let a := blamka (x.get i) (x.get j)
  let d := rotr64 (x.get l ^^^ a) 32
  let c := blamka (x.get k) d
  let b := rotr64 (x.get j ^^^ c) 24
  let a := blamka a b
  let d := rotr64 (d ^^^ a) 16
  let c := blamka c d
  let b := rotr64 (b ^^^ c) 63
  (((x.set i a).set j b).set k c).set l d

def argon2Permute16 (x : Vec UInt64 16) : Vec UInt64 16 :=
  x |> argon2G 0 4 8 12
    |> argon2G 1 5 9 13
    |> argon2G 2 6 10 14
    |> argon2G 3 7 11 15
    |> argon2G 0 5 10 15
    |> argon2G 1 6 11 12
    |> argon2G 2 7 8 13
    |> argon2G 3 4 9 14

/-- Permute the sixteen words at these places of a block. -/
def permuteAt (place : Nat → Nat) (z : Block) : Block :=
  z.scatter 16 place (argon2Permute16 (.build 16 fun number => z.get (place number))).get

def rowPlace (i number : Nat) : Nat := 16 * i + number

/-- Word `2 j` and `2 j + 1` of column `i` stand in row `j`. -/
def columnPlace (i number : Nat) : Nat := 16 * (number / 2) + i * 2 + number % 2

def permuteAll (place : Nat → Nat → Nat) (z : Block) : Block := (List.range 8).foldl (fun z i => permuteAt (place i) z) z

def argon2Compress (out a b : Block) (xorWithOld : Bool) : Block :=
  let r : Block := .build blockWords fun i => a.get i ^^^ b.get i
  let z := permuteAll columnPlace (permuteAll rowPlace r)
  if xorWithOld then .build blockWords fun i => out.get i ^^^ (r.get i ^^^ z.get i)
  else .build blockWords fun i => r.get i ^^^ z.get i

def blockFromBytes (source : Bytes) : Block := .build blockWords fun i => UInt64.ofNat (leNat ((source.drop (i * 8)).take 8))

def blockToBytes (block : Block) : Bytes := (List.range blockWords).flatMap fun i => leBytes 8 (block.get i).toNat

def indexAlpha (pass slice index lane refLane laneLen segLen pseudoRand : UInt32) : UInt32 :=
  let refAreaSize : UInt32 :=
    if pass = 0 then
      if slice = 0 then index - 1
      else if refLane = lane then slice * segLen + index - 1
      else if index = 0 then slice * segLen - 1
      else slice * segLen
    else if refLane = lane then laneLen - segLen + index - 1
    else if index = 0 then laneLen - segLen - 1
    else laneLen - segLen
  let startPos : UInt32 :=
    if pass = 0 then 0
    else if slice = 4 - 1 then 0
    else (slice + 1) * segLen
  if refAreaSize = 0 then 0
  else
    let x : UInt64 := pseudoRand.toUInt64
    let y := (x * x) >>> 32
    let z := (refAreaSize.toUInt64 * y) >>> 32
    let rel := refAreaSize - 1 - z.toUInt32
    (startPos + rel) % laneLen

structure Layout where
  lanes : Nat
  laneLen : Nat
  segLen : Nat
  mBlocks : Nat
  tCost : Nat
  deriving DecidableEq

def Params.layout (params : Params) : Layout :=
  let laneLen := params.mCostKib.toNat / params.parallelism.toNat / syncPoints * syncPoints
  { lanes := params.parallelism.toNat
    laneLen
    segLen := laneLen / syncPoints
    mBlocks := laneLen * params.parallelism.toNat
    tCost := params.tCost.toNat }

abbrev Memory (layout : Layout) := Vec Block layout.mBlocks

/-- What a segment works on: the memory, and the blocks its addresses come from. -/
structure Segment (layout : Layout) where
  mem : Memory layout
  inputBlock : Block
  addrBlock : Block

/-- The block that `fill_segment` takes the first addresses from. -/
def firstInput (layout : Layout) (pass lane slice : Nat) : Block :=
  (.build blockWords fun _ => 0 : Block)
    |>.set 0 (UInt64.ofNat pass)
    |>.set 1 (UInt64.ofNat lane)
    |>.set 2 (UInt64.ofNat slice)
    |>.set 3 (UInt64.ofNat layout.mBlocks)
    |>.set 4 (UInt64.ofNat layout.tCost)
    |>.set 5 typeId.toUInt64

def zeroBlock : Block := .build blockWords fun _ => 0

section
variable {layout : Layout}

def nextAddresses (state : Segment layout) : Segment layout :=
  let inputBlock := state.inputBlock.set 6 (state.inputBlock.get 6 + 1)
  let once := argon2Compress state.addrBlock zeroBlock inputBlock false
  { state with inputBlock, addrBlock := argon2Compress once zeroBlock once false }

/-- The pseudo-random word of a block, and what it leaves of the addresses. -/
def pseudoRand (dataIndependent : Bool) (prev : Block) (i : Nat) (state : Segment layout) : UInt64 × Segment layout :=
  if dataIndependent then
    let state := if i % 128 = 0 then nextAddresses state else state
    (state.addrBlock.get (i % 128), state)
  else (prev.get 0, state)

/-- The block a pseudo-random word refers to, as its place in the memory. -/
def refPlace (layout : Layout) (pass lane slice i : Nat) (pseudoRand64 : UInt64) : Nat :=
  let refLane := if pass = 0 ∧ slice = 0 then lane else ((pseudoRand64 >>> 32) % UInt64.ofNat layout.lanes).toNat
  let refIndex := indexAlpha (.ofNat pass) (.ofNat slice) (.ofNat i) (.ofNat lane) (.ofNat refLane) (.ofNat layout.laneLen)
    (.ofNat layout.segLen) pseudoRand64.toUInt32
  refLane * layout.laneLen + refIndex.toNat

/-- The block before a block of a segment; the first of a lane comes after its last. -/
def prevPlace (layout : Layout) (lane slice i : Nat) : Nat :=
  let currIndex := slice * layout.segLen + i
  lane * layout.laneLen + if currIndex = 0 then layout.laneLen - 1 else currIndex - 1

def currPlace (layout : Layout) (lane slice i : Nat) : Nat := lane * layout.laneLen + slice * layout.segLen + i

def fillBlock (pass lane slice : Nat) (state : Segment layout) (i : Nat) : Segment layout :=
  let prev := state.mem.get (prevPlace layout lane slice i)
  let (pseudoRand64, state) := pseudoRand (pass = 0 ∧ slice < 2) prev i state
  let ref := state.mem.get (refPlace layout pass lane slice i pseudoRand64)
  let place := currPlace layout lane slice i
  { state with mem := state.mem.set place (argon2Compress (state.mem.get place) prev ref (pass ≠ 0)) }

def startIndex (pass slice : Nat) : Nat := if pass = 0 ∧ slice = 0 then 2 else 0

def fillSegment (pass lane slice : Nat) (mem : Memory layout) : Memory layout :=
  let inputBlock := if pass = 0 ∧ slice < 2 then firstInput layout pass lane slice else zeroBlock
  let first := startIndex pass slice
  ((List.range' first (layout.segLen - first)).foldl (fillBlock pass lane slice)
    { mem, inputBlock, addrBlock := zeroBlock }).mem

def fillMemory (mem : Memory layout) : Memory layout :=
  (List.range layout.tCost).foldl (fun mem pass =>
    (List.range syncPoints).foldl (fun mem slice =>
      (List.range layout.lanes).foldl (fun mem lane => fillSegment pass lane slice mem) mem) mem) mem

def finalBlock (mem : Memory layout) : Block :=
  (List.range layout.lanes).foldl (fun block lane =>
    .build blockWords fun word => block.get word ^^^ (mem.get (lane * layout.laneLen + (layout.laneLen - 1))).get word)
      zeroBlock

end

/-- Memory for the blocks, and for the buffers of the hash. -/
structure Env where
  secureAlloc : Except PmError Unit
  malloc : Bool

section
variable (blake2b : Bytes → Nat → Bytes)

/-- The loop of `argon2_hprime`: `left` bytes are still to be produced. -/
def hprimeLoop : Nat → Bytes → Nat → Bytes
  | 0, vPrev, left => blake2b vPrev left
  | fuel + 1, vPrev, left =>
    if left > 64 then vPrev.take 32 ++ hprimeLoop fuel (blake2b vPrev 64) (left - 32) else blake2b vPrev left

/-- The bytes of the hash; every turn of its loop produces some, so `outlen` turns are enough. -/
def hprimeBytes (input : Bytes) (outlen : Nat) : Bytes :=
  let buf := leBytes 4 outlen ++ input
  if outlen ≤ 64 then blake2b buf outlen else hprimeLoop blake2b outlen (blake2b buf 64) outlen

variable (env : Env)

def argon2Hprime (input : Bytes) (outlen : Nat) : Except PmError Bytes :=
  if outlen = 0 then .error .invalidParam
  else if env.malloc = false then .error .nomem
  else .ok (hprimeBytes blake2b input outlen)

def fillFirstBlocks {layout : Layout} (h0 : Bytes) (mem : Memory layout) : Except PmError (Memory layout) :=
  (List.range layout.lanes).foldlM (fun mem lane => do
    let first ← argon2Hprime blake2b env (h0 ++ (leBytes 4 0 ++ leBytes 4 lane)) blockBytes
    let mem := mem.set (lane * layout.laneLen) (blockFromBytes first)
    let second ← argon2Hprime blake2b env (h0 ++ (leBytes 4 1 ++ leBytes 4 lane)) blockBytes
    pure (mem.set (lane * layout.laneLen + 1) (blockFromBytes second))) mem

def argon2idDerive (request : Request) : Except PmError Bytes := do
  if request.password.length = 0 then throw .invalidParam
  let params ← validateParams request.params
  let layout := params.layout
  env.secureAlloc
  let h0 ← initialHash blake2b request.password request.salt params
  let mem : Memory layout ← fillFirstBlocks blake2b env h0 (.build layout.mBlocks fun _ => zeroBlock)
  argon2Hprime blake2b env (blockToBytes (finalBlock (fillMemory mem))) keySize

end

end Hiya.Pm.Argon2
