import Hiya.Pm.Argon2

/-! BLAKE2b of `pm_kdf.c`, without a key: a context that takes a message in pieces and always
keeps the last block back, as it is compressed in another way than those before it. -/

namespace Hiya.Pm.Blake2b
open Library
open Argon2 (rotr64)

def blockSize : Nat := 128

def blake2bIv : Vec UInt64 8 :=
  ⟨[0x6a09e667f3bcc908, 0xbb67ae8584caa73b, 0x3c6ef372fe94f82b, 0xa54ff53a5f1d36f1, 0x510e527fade682d1, 0x9b05688c2b3e6c1f,
    0x1f83d9abfb41bd6b, 0x5be0cd19137e2179], rfl⟩

def blake2bSigma : List (List Nat) :=
  [[0, 1, 2, 3, 4, 5, 6, 7, 8, 9, 10, 11, 12, 13, 14, 15],
    [14, 10, 4, 8, 9, 15, 13, 6, 1, 12, 0, 2, 11, 7, 5, 3],
    [11, 8, 12, 0, 5, 2, 15, 13, 10, 14, 3, 6, 7, 1, 9, 4],
    [7, 9, 3, 1, 13, 12, 11, 14, 2, 6, 5, 10, 4, 0, 15, 8],
    [9, 0, 5, 7, 2, 4, 10, 15, 14, 1, 11, 12, 6, 8, 3, 13],
    [2, 12, 6, 10, 0, 11, 8, 3, 4, 13, 7, 5, 15, 14, 1, 9],
    [12, 5, 1, 15, 14, 13, 4, 10, 0, 7, 6, 3, 9, 2, 8, 11],
    [13, 11, 7, 14, 12, 1, 3, 9, 5, 0, 15, 4, 8, 6, 2, 10],
    [6, 15, 14, 9, 11, 3, 0, 8, 12, 2, 13, 7, 1, 4, 10, 5],
    [10, 2, 8, 4, 7, 6, 1, 5, 15, 11, 9, 14, 3, 12, 13, 0],
    [0, 1, 2, 3, 4, 5, 6, 7, 8, 9, 10, 11, 12, 13, 14, 15],
    [14, 10, 4, 8, 9, 15, 13, 6, 1, 12, 0, 2, 11, 7, 5, 3]]

/-- The macro `B2_G` on four of the words. -/
def b2G (a b c d : Nat) (x y : UInt64) (v : Vec UInt64 16) : Vec UInt64 16 :=
  let va := v.get a + v.get b + x
  let vd := rotr64 (v.get d ^^^ va) 32
  let vc := v.get c + vd
  let vb := rotr64 (v.get b ^^^ vc) 24
  let va := va + vb + y
  let vd := rotr64 (vd ^^^ va) 16
  let vc := vc + vd
  let vb := rotr64 (vb ^^^ vc) 63
  (((v.set a va).set b vb).set c vc).set d vd

def blake2bRound (m v : Vec UInt64 16) (sigma : List Nat) : Vec UInt64 16 :=
  let word (place : Nat) := m.get (sigma.getD place 0)
  v |> b2G 0 4 8 12 (word 0) (word 1)
    |> b2G 1 5 9 13 (word 2) (word 3)
    |> b2G 2 6 10 14 (word 4) (word 5)
    |> b2G 3 7 11 15 (word 6) (word 7)
    |> b2G 0 5 10 15 (word 8) (word 9)
    |> b2G 1 6 11 12 (word 10) (word 11)
    |> b2G 2 7 8 13 (word 12) (word 13)
    |> b2G 3 4 9 14 (word 14) (word 15)

/-- The state of the hash apart from its buffer: the chain value and the count of bytes, in two
words. -/
structure Chain where
  h : Vec UInt64 8
  t0 : UInt64
  t1 : UInt64

def Chain.blake2bCompress (chain : Chain) (block : Bytes) (last : Bool) : Chain :=
  let m : Vec UInt64 16 := .build 16 fun i => UInt64.ofNat (leNat ((block.drop (i * 8)).take 8))
  let v : Vec UInt64 16 := .build 16 fun i => if i < 8 then chain.h.get i else blake2bIv.get (i - 8)
  let v := v.set 12 (v.get 12 ^^^ chain.t0)
  let v := v.set 13 (v.get 13 ^^^ chain.t1)
  let v := if last then v.set 14 (~~~ v.get 14) else v
  let v := blake2bSigma.foldl (blake2bRound m) v
  { chain with h := .build 8 fun i => chain.h.get i ^^^ (v.get i ^^^ v.get (i + 8)) }

/-- Count some bytes, with a carry into the second word. -/
def Chain.count (bytes : Nat) (chain : Chain) : Chain :=
  let t0 := chain.t0 + UInt64.ofNat bytes
  { chain with t0, t1 := if t0 < UInt64.ofNat bytes then chain.t1 + 1 else chain.t1 }

/-- Behind the first `buflen` bytes of the buffer stands what earlier blocks left there. -/
structure Blake2bCtx where
  chain : Chain
  buf : Bytes
  buflen : Nat

def memcpy (buf : Bytes) (offset : Nat) (bytes : Bytes) : Bytes :=
  buf.take offset ++ bytes ++ buf.drop (offset + bytes.length)

def blake2bInit (outlen : Nat) : Blake2bCtx where
  chain := { h := blake2bIv.set 0 (blake2bIv.get 0 ^^^ (0x01010000 ^^^ UInt64.ofNat outlen)), t0 := 0, t1 := 0 }
  buf := List.replicate blockSize 0
  buflen := 0

/-- One turn of the loop of `blake2b_update`, and the input it leaves. A buffer is only
compressed when it is full and there is more. -/
def updateTurn (at_ : Blake2bCtx × Bytes) : Blake2bCtx × Bytes :=
  let (ctx, input) := at_
  let left := ctx.buflen
  let fill := blockSize - left
  if fill < input.length then
    let buf := memcpy ctx.buf left (input.take fill)
    ({ chain := (ctx.chain.count blockSize).blake2bCompress buf false, buf, buflen := 0 }, input.drop fill)
  else ({ ctx with buf := memcpy ctx.buf left input, buflen := left + input.length }, [])

theorem updateTurn_less (ctx : Blake2bCtx) {input : Bytes} (some : input ≠ []) :
    (updateTurn (ctx, input)).2.length * 2 + (updateTurn (ctx, input)).1.buflen / blockSize < input.length * 2 +
    ctx.buflen / blockSize := by
  have positive := List.length_pos_iff.mpr some
  have size : blockSize = 128 := rfl
  unfold updateTurn
  dsimp only
  split
  · simp only [List.length_drop, size] at *
    omega
  · simp only [List.length_nil, size] at *
    omega

def blake2bUpdate (ctx : Blake2bCtx) (input : Bytes) : Blake2bCtx :=
  if input = [] then ctx else blake2bUpdate (updateTurn (ctx, input)).1 (updateTurn (ctx, input)).2
termination_by input.length * 2 + ctx.buflen / blockSize
decreasing_by exact updateTurn_less ctx ‹_›

def blake2bFinal (ctx : Blake2bCtx) : Bytes :=
  let buf := memcpy ctx.buf ctx.buflen (List.replicate (blockSize - ctx.buflen) 0)
  let chain := (ctx.chain.count ctx.buflen).blake2bCompress buf true
  (List.range 8).flatMap fun i => leBytes 8 (chain.h.get i).toNat

/-- A digest of more than 64 bytes is not for this function to make. -/
def blake2bHash (input : Bytes) (outlen : Nat) : Bytes :=
  (blake2bFinal (blake2bUpdate (blake2bInit (min outlen 64)) input)).take (min outlen 64)

end Hiya.Pm.Blake2b
