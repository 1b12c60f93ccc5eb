import Mathlib.Data.UInt
import Hiya.Pm.Kdf

/-! Argon2id as RFC 9106 defines it, for a tag of 32 bytes without secret and associated
data. This is no part of the program; the derivation of `pm_kdf.c` is compared with it.
Numbers in comments are sections of the RFC. BLAKE2b is a parameter here too. -/

namespace Hiya.Pm.Rfc9106
open Library

/-- A block is a matrix of eight by eight registers of two words each. -/
abbrev Block := Fin 8 → Fin 8 → Fin 2 → UInt64

def word (block : Block) (n : Fin 128) : UInt64 := block ⟨n / 16, by omega⟩ ⟨n % 16 / 2, by omega⟩ ⟨n % 2, by omega⟩

def ofWords (words : Nat → UInt64) : Block := fun i j k => words (16 * i + 2 * j + k)

def zero : Block := fun _ _ _ => 0

def xor (first second : Block) : Block := fun i j k => first i j k ^^^ second i j k

def trunc (a : UInt64) : UInt64 := a % 2 ^ 32

def rotateRight (a : UInt64) (n : Nat) : UInt64 := ⟨a.toBitVec.rotateRight n⟩

/-- `GB(a, b, c, d)` on four of the sixteen words. -/
def gb (a b c d : Fin 16) (v : Fin 16 → UInt64) : Fin 16 → UInt64 :=
  let va := v a + v b + 2 * trunc (v a) * trunc (v b)
  let vd := rotateRight (v d ^^^ va) 32
  let vc := v c + vd + 2 * trunc (v c) * trunc vd
  let vb := rotateRight (v b ^^^ vc) 24
  let va := va + vb + 2 * trunc va * trunc vb
  let vd := rotateRight (vd ^^^ va) 16
  let vc := vc + vd + 2 * trunc vc * trunc vd
  let vb := rotateRight (vb ^^^ vc) 63
  fun n => if n = d then vd else if n = c then vc else if n = b then vb else if n = a then va else v n

def rounds (v : Fin 16 → UInt64) : Fin 16 → UInt64 :=
  v |> gb 0 4 8 12 |> gb 1 5 9 13 |> gb 2 6 10 14 |> gb 3 7 11 15
    |> gb 0 5 10 15 |> gb 1 6 11 12 |> gb 2 7 8 13 |> gb 3 4 9 14

/-- The permutation `P` of eight registers. -/
def permutation (s : Fin 8 → Fin 2 → UInt64) : Fin 8 → Fin 2 → UInt64 := fun i k =>
  rounds (fun n => s ⟨n / 2, by omega⟩ ⟨n % 2, by omega⟩) ⟨2 * i + k, by omega⟩

/-- The permutation goes over the rows, then over the columns. -/
def compress (x y : Block) : Block :=
  let r := xor x y
  let q : Block := fun i => permutation (r i)
  let z : Block := fun i j => permutation (fun row => q row j) i
  xor z r

/-- The sizes of a memory: lanes, the columns of a lane, and the passes over it. -/
structure Sizes where
  p : Nat
  m : Nat
  t : Nat
  deriving DecidableEq

namespace Sizes
variable (sizes : Sizes)

/-- The number of blocks, a multiple of four times the lanes. -/
def blocks : Nat := 4 * sizes.p * (sizes.m / (4 * sizes.p))

def columns : Nat := sizes.blocks / sizes.p

def segment : Nat := sizes.columns / 4

end Sizes

/-- The input of the block of addresses with some counter, 3.4.1.2. -/
def addressInput (sizes : Sizes) (pass lane slice counter : Nat) : Block := ofWords fun n =>
  UInt64.ofNat ([pass, lane, slice, sizes.blocks, sizes.t, 2, counter].getD n 0)

def addressBlock (sizes : Sizes) (pass lane slice counter : Nat) : Block :=
  compress zero (compress zero (addressInput sizes pass lane slice counter))

/-- The word for a block of a segment with data-independent addresses; the counter starts at one. -/
def addressWord (sizes : Sizes) (pass lane slice index : Nat) : UInt64 :=
  word (addressBlock sizes pass lane slice (index / 128 + 1)) ⟨index % 128, by omega⟩

/-- The slices that are finished, in the order in which they were, 3.4.2. -/
def finishedSlices (pass slice : Nat) : List Nat :=
  if pass = 0 then List.range slice else [(slice + 1) % 4, (slice + 2) % 4, (slice + 3) % 4]

def segmentColumns (sizes : Sizes) (slice count : Nat) : List Nat := (List.range count).map (slice * sizes.segment + ·)

/-- The set `W`: finished segments, and in the own lane what there is of the current one.
The block before the current one is left out, and with a new segment the last one of another lane. -/
def window (sizes : Sizes) (pass slice index : Nat) (ownLane : Bool) : List Nat :=
  let finished := (finishedSlices pass slice).flatMap fun slice => segmentColumns sizes slice sizes.segment
  if ownLane then (finished ++ segmentColumns sizes slice index).dropLast
  else if index = 0 then finished.dropLast
  else finished

/-- The lane and the column that a word refers to, 3.4.2. -/
def reference (sizes : Sizes) (pass slice lane index : Nat) (pseudo : UInt64) : Nat × Nat :=
  let j1 := pseudo.toNat % 2 ^ 32
  let j2 := pseudo.toNat / 2 ^ 32
  let l := if pass = 0 ∧ slice = 0 then lane else j2 % sizes.p
  let w := window sizes pass slice index (l = lane)
  let x := j1 ^ 2 / 2 ^ 32
  let y := w.length * x / 2 ^ 32
  (l, w.getD (w.length - 1 - y) 0)

/-- The matrix `B` of blocks. -/
abbrev Matrix := Nat → Nat → Block

def put (matrix : Matrix) (lane column : Nat) (block : Block) : Matrix := fun l c =>
  if l = lane ∧ c = column then block else matrix l c

/-- Argon2id takes its addresses from a counter in the first half of the first pass. -/
def dataIndependent (pass slice : Nat) : Bool := pass = 0 ∧ slice < 2

/-- What an instance of Argon2id hashes and draws its words with. -/
structure Parts where
  h0 : Bytes
  hash : Bytes → Nat → Bytes
  word : Nat → Nat → Nat → Nat → UInt64

def blockOfBytes (bytes : Bytes) : Block := ofWords fun n => UInt64.ofNat (leNat ((bytes.drop (8 * n)).take 8))

def bytesOfBlock (block : Block) : Bytes := (List.finRange 128).flatMap fun n => leBytes 8 (word block n).toNat

section
variable (sizes : Sizes) (parts : Parts)

def firstBlock (lane column : Nat) : Block :=
    blockOfBytes (parts.hash (parts.h0 ++ (leBytes 4 column ++ leBytes 4 lane)) 1024)

def start : Matrix := fun lane column => if column < 2 then firstBlock parts lane column else zero

def next (pass slice lane : Nat) (matrix : Matrix) (index : Nat) : Matrix :=
  let column := slice * sizes.segment + index
  let previous := matrix lane ((column + sizes.columns - 1) % sizes.columns)
  let pseudo := if dataIndependent pass slice then parts.word pass lane slice index else word previous 0
  let (l, z) := reference sizes pass slice lane index pseudo
  let block := compress previous (matrix l z)
  put matrix lane column (if pass = 0 then block else xor block (matrix lane column))

/-- The blocks of a segment that are computed: all but the first two of the first pass. -/
def indices (pass slice : Nat) : List Nat :=
  let first := if pass = 0 ∧ slice = 0 then 2 else 0
  List.range' first (sizes.segment - first)

def fill (matrix : Matrix) : Matrix :=
  (List.range sizes.t).foldl (fun matrix pass =>
    (List.range 4).foldl (fun matrix slice =>
      (List.range sizes.p).foldl (fun matrix lane =>
        (indices sizes pass slice).foldl (next sizes parts pass slice lane) matrix) matrix) matrix) matrix

def final (matrix : Matrix) : Block :=
  (List.range sizes.p).foldl (fun block lane => xor block (matrix lane (sizes.columns - 1))) zero

def tag : Bytes := parts.hash (bytesOfBlock (final sizes (fill sizes parts (start parts)))) 32

end

section
variable (blake2b : Bytes → Nat → Bytes)

/-- `V` with a number, from one on. -/
def chain (input : Bytes) (length : Nat) : Nat → Bytes
  | 0 => blake2b (leBytes 4 length ++ input) 64
  | count + 1 => blake2b (chain input length count) 64

/-- The hash `H'` of variable length. -/
def variableHash (input : Bytes) (length : Nat) : Bytes :=
  if length ≤ 64 then blake2b (leBytes 4 length ++ input) length
  else
    let r := (length + 31) / 32 - 2
    (List.range r).flatMap (fun number => (chain blake2b input length number).take 32) ++
      blake2b (chain blake2b input length (r - 1)) (length - 32 * r)

/-- The bytes that are hashed into `H_0`. -/
def initialInput (password salt : Bytes) (sizes : Sizes) : Bytes :=
  leBytes 4 sizes.p ++ (leBytes 4 32 ++ (leBytes 4 sizes.m ++ (leBytes 4 sizes.t ++ (leBytes 4 0x13 ++ (leBytes 4 2 ++
    (leBytes 4 password.length ++ (password ++ (leBytes 4 salt.length ++ (salt ++ (leBytes 4 0 ++ leBytes 4 0))))))))))

def parts (password salt : Bytes) (sizes : Sizes) : Parts where
  h0 := blake2b (initialInput password salt sizes) 64
  hash := variableHash blake2b
  word := addressWord sizes

def argon2id (password salt : Bytes) (sizes : Sizes) : Bytes := tag sizes (parts blake2b password salt sizes)

end

end Hiya.Pm.Rfc9106
