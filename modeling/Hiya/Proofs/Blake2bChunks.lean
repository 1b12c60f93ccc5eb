import Mathlib.Data.List.Induction
import Mathlib.Logic.Function.Iterate
import Hiya.Library.Blocks
import Hiya.Pm.Blake2b
import Hiya.Proofs.Argon2Departures

/-! A message may be handed to BLAKE2b in any pieces. What the context is after some pieces
depends on their concatenation only, apart from the bytes in its buffer that nobody looks at. -/

namespace Hiya.Pm.Blake2b
open Library

def Chain.absorb (chain : Chain) (block : Bytes) : Chain := (chain.count blockSize).blake2bCompress block false

def Chain.finish (chain : Chain) (last : Bytes) : Bytes :=
  let padded := last ++ List.replicate (blockSize - last.length) 0
  let done := (chain.count last.length).blake2bCompress padded true
  (List.range 8).flatMap fun i => leBytes 8 (done.h.get i).toNat

theorem length_memcpy {buf bytes : Bytes} {offset : Nat} (fits : offset + bytes.length ≤ buf.length) :
    (memcpy buf offset bytes).length = buf.length := by
  unfold memcpy
  simp only [List.length_append, List.length_take, List.length_drop]
  omega

theorem take_memcpy {buf bytes : Bytes} {offset : Nat} (inside : offset ≤ buf.length) :
    (memcpy buf offset bytes).take (offset + bytes.length) = buf.take offset ++ bytes := by
  unfold memcpy
  rw [List.take_left']
  rw [List.length_append, List.length_take_of_le inside]

/-- To fill up the buffer leaves nothing of what stood behind its content. -/
theorem memcpy_full {buf bytes : Bytes} {offset : Nat} (full : buf.length ≤ offset + bytes.length) :
    memcpy buf offset bytes = buf.take offset ++ bytes := by
  unfold memcpy
  rw [List.drop_eq_nil_of_le full, List.append_nil]

structure Holds (ctx : Blake2bCtx) (chain : Chain) (held : Bytes) : Prop where
  chain : ctx.chain = chain
  held : ctx.buf.take ctx.buflen = held
  length : ctx.buf.length = blockSize
  small : ctx.buflen ≤ blockSize

section
variable {ctx : Blake2bCtx} {chain : Chain} {held : Bytes}

theorem Holds.length_held (holds : Holds ctx chain held) : held.length = ctx.buflen := by
  have small := holds.small
  rw [← holds.held, List.length_take, holds.length]
  omega

theorem holds_init (outlen : Nat) : Holds (blake2bInit outlen) (blake2bInit outlen).chain [] where
  chain := rfl
  held := List.take_zero
  length := List.length_replicate
  small := Nat.zero_le _

theorem Holds.full (holds : Holds ctx chain held) {input : Bytes} (more : blockSize - ctx.buflen < input.length) :
    Holds (updateTurn (ctx, input)).1 (chain.absorb (held ++ input.take (blockSize - ctx.buflen))) [] ∧
      (updateTurn (ctx, input)).2 = input.drop (blockSize - ctx.buflen) := by
  have small := holds.small
  have front : (input.take (blockSize - ctx.buflen)).length = blockSize - ctx.buflen :=
    List.length_take_of_le (Nat.le_of_lt more)
  have block : memcpy ctx.buf ctx.buflen (input.take (blockSize - ctx.buflen)) = held ++
    input.take (blockSize - ctx.buflen) := by
    rw [memcpy_full (by rw [front, holds.length]; omega), holds.held]
  have length : (held ++ input.take (blockSize - ctx.buflen)).length = blockSize := by
    rw [List.length_append, front, holds.length_held]
    omega
  unfold updateTurn
  dsimp only
  rw [if_pos more, block]
  refine ⟨⟨?_, List.take_zero, length, Nat.zero_le _⟩, rfl⟩
  rw [← holds.chain]
  rfl

theorem Holds.partly (holds : Holds ctx chain held) {input : Bytes} (all : ¬ blockSize - ctx.buflen < input.length) :
    Holds (updateTurn (ctx, input)).1 chain (held ++ input) ∧ (updateTurn (ctx, input)).2 = [] := by
  have small := holds.small
  have fits : ctx.buflen + input.length ≤ blockSize := by omega
  unfold updateTurn
  dsimp only
  rw [if_neg all]
  refine ⟨⟨holds.chain, ?_, ?_, fits⟩, rfl⟩
  · change (memcpy ctx.buf ctx.buflen input).take (ctx.buflen + input.length) = held ++ input
    rw [take_memcpy (by rw [holds.length]; exact small), holds.held]
  · rw [← holds.length]
    exact length_memcpy (by rw [holds.length]; exact fits)

/-- The turns of an update cut what is kept back and the input together. -/
theorem Holds.update (holds : Holds ctx chain held) (input : Bytes) :
    Holds (blake2bUpdate ctx input) (absorbed blockSize Chain.absorb chain (held ++ input)).1
      (absorbed blockSize Chain.absorb chain (held ++ input)).2 := by
  induction ctx, input using blake2bUpdate.induct generalizing chain held with
  | case1 ctx =>
    have short : (held ++ []).length ≤ blockSize := by
      rw [List.append_nil, holds.length_held]
      exact holds.small
    rw [blake2bUpdate, if_pos rfl, absorbed_short _ _ short, List.append_nil]
    exact holds
  | case2 ctx input some ih =>
    rw [blake2bUpdate, if_neg some]
    by_cases more : blockSize - ctx.buflen < input.length
    · obtain ⟨next, left⟩ := holds.full more
      have rest : input.drop (blockSize - ctx.buflen) ≠ [] := by
        refine List.length_pos_iff.mp ?_
        rw [List.length_drop]
        omega
      have block : (held ++ input.take (blockSize - ctx.buflen)).length = blockSize := by
        have small := holds.small
        rw [List.length_append, List.length_take_of_le (Nat.le_of_lt more), holds.length_held]
        omega
      have done := ih next
      rw [left, List.nil_append, ← absorbed_long (by decide) Chain.absorb chain block rest, List.append_assoc,
        List.take_append_drop] at done
      rw [left]
      exact done
    · obtain ⟨next, left⟩ := holds.partly more
      have short : (held ++ input).length ≤ blockSize := by
        have small := holds.small
        rw [List.length_append, holds.length_held]
        omega
      rw [left, blake2bUpdate, if_pos rfl, absorbed_short _ _ short]
      exact next

theorem Holds.final (holds : Holds ctx chain held) : blake2bFinal ctx = chain.finish held := by
  have small := holds.small
  have padded : memcpy ctx.buf ctx.buflen (List.replicate (blockSize - ctx.buflen) 0) = held ++
    List.replicate (blockSize - held.length) 0 := by
    rw [memcpy_full (by rw [List.length_replicate, holds.length]; omega), holds.held, holds.length_held]
  unfold blake2bFinal Chain.finish
  dsimp only
  rw [padded, holds.length_held, holds.chain]

end

/-- After some chunks the context is where their concatenation leads. -/
theorem holds_chunks (outlen : Nat) (chunks : List Bytes) :
    Holds (chunks.foldl blake2bUpdate (blake2bInit outlen))
      (absorbed blockSize Chain.absorb (blake2bInit outlen).chain chunks.flatten).1
      (absorbed blockSize Chain.absorb (blake2bInit outlen).chain chunks.flatten).2 := by
  induction chunks using List.reverseRecOn with
  | nil =>
    rw [List.flatten_nil, absorbed_short _ _ (Nat.zero_le blockSize)]
    exact holds_init outlen
  | append_singleton chunks chunk ih =>
    rw [List.foldl_append, List.flatten_append, List.flatten_singleton, absorbed_append (by decide)]
    exact ih.update chunk

theorem updateTurn_small {ctx : Blake2bCtx} (small : ctx.buflen ≤ blockSize) (input : Bytes) :
    (updateTurn (ctx, input)).1.buflen ≤ blockSize := by
  unfold updateTurn
  dsimp only
  split
  · exact Nat.zero_le _
  · change ctx.buflen + input.length ≤ blockSize
    omega

theorem turns_small {ctx : Blake2bCtx} (small : ctx.buflen ≤ blockSize) (input : Bytes) (turns : Nat) :
    (updateTurn^[turns] (ctx, input)).1.buflen ≤ blockSize := by
  induction turns with
  | zero => exact small
  | succ turns ih =>
    rw [Function.iterate_succ_apply']
    exact updateTurn_small ih _

/-- However a message is split, its digest is that of the whole, and at no turn of any update
the index leaves the buffer. -/
theorem chunks_give_one_digest (outlen : Nat) (chunks : List Bytes) :
    blake2bFinal (chunks.foldl blake2bUpdate (blake2bInit outlen)) =
    blake2bFinal (blake2bUpdate (blake2bInit outlen) chunks.flatten) ∧
      ∀ front chunk back, chunks = front ++ chunk :: back → ∀ turns,
        (updateTurn^[turns] (front.foldl blake2bUpdate (blake2bInit outlen), chunk)).1.buflen ≤ blockSize := by
  constructor
  · have whole := (holds_init outlen).update chunks.flatten
    rw [List.nil_append] at whole
    rw [(holds_chunks outlen chunks).final, whole.final]
  · intro front chunk _ _ turns
    exact turns_small (holds_chunks outlen front).small chunk turns

/-- The hash is one that the code of Argon2 can be run with. -/
theorem blake2bHash_lawful : Argon2.Lawful blake2bHash := by
  intro input length short
  have whole (ctx : Blake2bCtx) : (blake2bFinal ctx).length = 64 := by simp [blake2bFinal, List.length_flatMap]
  rw [blake2bHash, List.length_take, whole, Nat.min_eq_left short, Nat.min_eq_left short]

end Hiya.Pm.Blake2b
