import Hiya.Proofs.Argon2Fill
import Hiya.Proofs.KdfPrehash

/-! The derivation as a whole, against RFC 9106. Everything is the RFC's but the hash of
variable length beyond 64 bytes, the addresses of the first segment, and the input of the
first hash when the password is long. -/

namespace Hiya.Pm.Argon2
open Library
open Rfc9106 (Sizes Matrix Parts)

def Matches {sizes : Sizes} (mem : Memory (layoutOf sizes)) (matrix : Matrix) : Prop :=
  ∀ lane < sizes.p, ∀ column < sizes.columns, view (mem.get (lane * sizes.columns + column)) = matrix lane column

section
variable {sizes : Sizes}

theorem place_inside (admitted : Admitted sizes) {lane column : Nat} (inside : lane < sizes.p)
    (low : column < sizes.columns) :
    lane * sizes.columns + column < sizes.blocks := by
  have rows : (lane + 1) * sizes.columns ≤ sizes.p * sizes.columns := Nat.mul_le_mul_right _ inside
  rw [admitted.blocks_columns]
  rw [Nat.succ_mul] at rows
  omega

theorem place_inj {lane column lane' column' : Nat} (low : column < sizes.columns) (low' : column' < sizes.columns)
    (same : lane * sizes.columns + column = lane' * sizes.columns + column') : lane = lane' ∧ column = column' := by
  have positive : 0 < sizes.columns := Nat.zero_lt_of_lt low
  have columns : column = column' := by
    have rest := congrArg (· % sizes.columns) same
    simpa only [Nat.mul_add_mod_self_right, Nat.mod_eq_of_lt low, Nat.mod_eq_of_lt low'] using rest
  subst columns
  exact ⟨Nat.eq_of_mul_eq_mul_right positive (Nat.add_right_cancel same), rfl⟩

theorem Matches.put (admitted : Admitted sizes) {mem : Memory (layoutOf sizes)} {matrix : Matrix} (holds : Matches mem matrix)
    {lane column : Nat} (inside : lane < sizes.p) (low : column < sizes.columns) {block : Block} {new : Rfc9106.Block}
    (same : view block = new) :
    Matches (mem.set (lane * sizes.columns + column) block) (Rfc9106.put matrix lane column new) := by
  intro l row c below
  rw [Vec.get_set _ _ (show _ < (layoutOf sizes).mBlocks from place_inside admitted inside low)]
  unfold Rfc9106.put
  by_cases here : l = lane ∧ c = column
  · rw [if_pos here, if_pos (by rw [here.1, here.2])]
    exact same
  · rw [if_neg here, if_neg fun equal => here ?_]
    · exact holds l row c below
    · obtain ⟨lanes, columns⟩ := place_inj low below equal
      exact ⟨lanes.symm, columns.symm⟩

end

section
variable {sizes : Sizes} {parts : Parts} {pass slice lane index : Nat} {state : Segment (layoutOf sizes)} {matrix : Matrix}

structure InSegment (pass lane slice index : Nat) (state : Segment (layoutOf sizes)) (matrix : Matrix) : Prop where
  holds : Matches state.mem matrix
  addresses : pass = 0 → slice < 2 → Drawn sizes pass lane slice index state

theorem prevPlace_eq (admitted : Admitted sizes) (lane : Nat) (fewSlices : slice < 4) (inSegment : index < sizes.segment) :
    prevPlace (layoutOf sizes) lane slice index = lane * sizes.columns +
    (slice * sizes.segment + index + sizes.columns - 1) % sizes.columns ∧
      slice * sizes.segment + index < sizes.columns := by
  have columns := admitted.columns_segment
  have room : slice * sizes.segment ≤ 3 * sizes.segment := Nat.mul_le_mul_right _ (by omega)
  have low : slice * sizes.segment + index < sizes.columns := by omega
  refine ⟨congrArg (lane * sizes.columns + ·) ?_, low⟩
  change (if slice * sizes.segment + index = 0 then sizes.columns - 1 else slice * sizes.segment + index - 1) = _
  split
  next zero => rw [zero, Nat.zero_add, Nat.mod_eq_of_lt (by omega)]
  next positive =>
    have shift : slice * sizes.segment + index + sizes.columns - 1 = slice * sizes.segment + index - 1 +
      sizes.columns := by omega
    rw [shift, Nat.add_mod_right, Nat.mod_eq_of_lt (by omega)]

theorem currPlace_eq : currPlace (layoutOf sizes) lane slice index = lane * sizes.columns + (slice * sizes.segment + index) :=
  Nat.add_assoc ..

/-- The word, the state behind it, and that the memory is still there. -/
theorem pseudoRand_eq (known : InSegment pass lane slice index state matrix) (later : pass = 0 → slice = 0 → 2 ≤ index)
    (words : parts.word = codeWord sizes) {prev : Block} {previous : Rfc9106.Block} (same : view prev = previous) :
    (pseudoRand (pass = 0 ∧ slice < 2) prev index state).1 =
        (if Rfc9106.dataIndependent pass slice then parts.word pass lane slice index else Rfc9106.word previous 0) ∧
      (pseudoRand (pass = 0 ∧ slice < 2) prev index state).2.mem = state.mem ∧
      (pass = 0 → slice < 2 → Drawn sizes pass lane slice (index + 1)
      (pseudoRand (pass = 0 ∧ slice < 2) prev index state).2) := by
  unfold Rfc9106.dataIndependent
  by_cases early : pass = 0 ∧ slice < 2
  · obtain ⟨word, after, mem⟩ := pseudoRand_independent (known.addresses early.1 early.2) (later early.1) prev
    rw [decide_eq_true early, if_pos rfl, words]
    exact ⟨word, mem, fun _ _ => after⟩
  · rw [decide_eq_false early, if_neg Bool.false_ne_true, ← same, word_view]
    exact ⟨rfl, rfl, fun first low => absurd ⟨first, low⟩ early⟩

theorem fillBlock_step (admitted : Admitted sizes) (fewPasses : pass < 2 ^ 32) (fewSlices : slice < 4)
    (inSegment : index < sizes.segment)
    (inside : lane < sizes.p) (later : pass = 0 → slice = 0 → 2 ≤ index) (words : parts.word = codeWord sizes)
    (known : InSegment pass lane slice index state matrix) :
    InSegment pass lane slice (index + 1) (fillBlock pass lane slice state index)
    (Rfc9106.next sizes parts pass slice lane matrix index) := by
  obtain ⟨place, low⟩ := prevPlace_eq admitted lane fewSlices inSegment
  have prevSame : view (state.mem.get (prevPlace (layoutOf sizes) lane slice index)) = _ :=
    place ▸ known.holds lane inside _ (Nat.mod_lt _ (Nat.zero_lt_of_lt low))
  obtain ⟨word, mem, after⟩ := pseudoRand_eq known later words prevSame
  obtain ⟨ref, refInside, refLow⟩ := refPlace_eq admitted fewPasses fewSlices inSegment inside later
    (if Rfc9106.dataIndependent pass slice then parts.word pass lane slice index
      else Rfc9106.word (matrix lane ((slice * sizes.segment + index + sizes.columns - 1) % sizes.columns)) 0)
  unfold fillBlock
  dsimp only
  refine ⟨?_, fun first early => ⟨(after first early).input, (after first early).addresses⟩⟩
  rw [mem, currPlace_eq, word, ref]
  refine known.holds.put admitted inside low ?_
  by_cases first : pass = 0
  · rw [if_pos first, decide_eq_false (not_not.mpr first), view_compress, prevSame, known.holds _ refInside _ refLow]
    rfl
  · rw [if_neg first, decide_eq_true first, view_compress_xor, prevSame, known.holds _ refInside _ refLow,
      known.holds lane inside _ low]
    rfl

end

section
variable {sizes : Sizes} {parts : Parts} (admitted : Admitted sizes) (words : parts.word = codeWord sizes)
include admitted words

theorem fillSegment_matches {pass slice lane : Nat} (fewPasses : pass < 2 ^ 32) (fewSlices : slice < 4)
    (inside : lane < sizes.p)
    {mem : Memory (layoutOf sizes)} {matrix : Matrix} (holds : Matches mem matrix) :
    Matches (fillSegment pass lane slice mem)
    ((Rfc9106.indices sizes pass slice).foldl (Rfc9106.next sizes parts pass slice lane) matrix) := by
  have two := admitted.segment_two
  have started : startIndex pass slice ≤ sizes.segment := by
    unfold startIndex
    split <;> omega
  have start : InSegment pass lane slice (startIndex pass slice)
      { mem, inputBlock := if pass = 0 ∧ slice < 2 then firstInput (layoutOf sizes) pass lane slice else zeroBlock, addrBlock := zeroBlock } matrix := by
    refine ⟨holds, fun first early => ?_⟩
    subst first
    rw [if_pos ⟨rfl, early⟩]
    exact drawn_start mem
  refine (foldl_range'_rel (fun index state matrix => InSegment pass lane slice index state matrix) ?_ start).holds
  intro index low high state matrix known
  refine fillBlock_step admitted fewPasses fewSlices ?_ inside (fun first zero => ?_) words known
  · have counted : (layoutOf sizes).segLen = sizes.segment := rfl
    omega
  · rwa [startIndex, if_pos ⟨first, zero⟩] at low

theorem fillMemory_matches {mem : Memory (layoutOf sizes)} {matrix : Matrix} (holds : Matches mem matrix) :
    Matches (fillMemory mem) (Rfc9106.fill sizes parts matrix) := by
  have passes := admitted.fewPasses
  refine List.foldl_rel holds fun pass inPasses mem matrix holds => ?_
  refine List.foldl_rel holds fun slice inSlices mem matrix holds => ?_
  refine List.foldl_rel holds fun lane inLanes mem matrix holds => ?_
  have few : pass < sizes.t := List.mem_range.mp inPasses
  exact fillSegment_matches admitted words (by omega) (List.mem_range.mp inSlices) (List.mem_range.mp inLanes) holds

end

section
variable {sizes : Sizes} (admitted : Admitted sizes)
include admitted

theorem view_finalBlock {mem : Memory (layoutOf sizes)} {matrix : Matrix} (holds : Matches mem matrix) :
    view (finalBlock mem) = Rfc9106.final sizes matrix := by
  have columns := admitted.columns_segment
  have two := admitted.segment_two
  refine List.foldl_rel (r := fun block sum => view block = sum) view_zeroBlock fun lane inside block sum same => ?_
  have last := holds lane (List.mem_range.mp inside) (sizes.columns - 1) (by omega)
  rw [view_build, ← same, ← last]
  rfl

end

theorem blockToBytes_eq (block : Block) : blockToBytes block = Rfc9106.bytesOfBlock (view block) := by
  unfold blockToBytes Rfc9106.bytesOfBlock
  simp only [word_view]
  rw [show List.range blockWords = (List.finRange 128).map Fin.val from (List.map_coe_finRange_eq_range).symm,
    List.flatMap_map]

theorem view_blockFromBytes (bytes : Bytes) : view (blockFromBytes bytes) = Rfc9106.blockOfBytes bytes := by
  refine (view_build _).trans (congrArg Rfc9106.ofWords (funext fun n => ?_))
  rw [Nat.mul_comm]

/-- Memory for everything. -/
def Env.Ample (env : Env) : Prop := env.secureAlloc = .ok () ∧ env.malloc = true

section
variable {blake2b : Bytes → Nat → Bytes} {env : Env} (ample : env.Ample)
include ample

theorem argon2Hprime_ample {input : Bytes} {length : Nat} (positive : 0 < length) :
    argon2Hprime blake2b env input length = .ok (hprimeBytes blake2b input length) := by
  unfold argon2Hprime
  rw [if_neg (by omega), ample.2, if_neg (by decide)]

theorem fillFirstBlocks_eq {layout : Layout} (h0 : Bytes) (mem : Memory layout) :
    fillFirstBlocks blake2b env h0 mem = .ok ((List.range layout.lanes).foldl (fun mem lane =>
      (mem.set (lane * layout.laneLen) (blockFromBytes (hprimeBytes blake2b (h0 ++ (leBytes 4 0 ++ leBytes 4 lane))
      1024))).set
        (lane * layout.laneLen + 1) (blockFromBytes (hprimeBytes blake2b (h0 ++ (leBytes 4 1 ++ leBytes 4 lane))
        1024))) mem) := by
  have hashed (input : Bytes) : argon2Hprime blake2b env input blockBytes = .ok (hprimeBytes blake2b input 1024) :=
    argon2Hprime_ample ample (by decide)
  unfold fillFirstBlocks
  simp only [hashed]
  exact List.foldlM_pure

end

def startedLanes (parts : Parts) (count : Nat) : Matrix := fun lane column =>
  if lane < count ∧ column < 2 then Rfc9106.firstBlock parts lane column else Rfc9106.zero

theorem put_started (parts : Parts) (count : Nat) :
    Rfc9106.put (Rfc9106.put (startedLanes parts count) count 0 (Rfc9106.firstBlock parts count 0)) count 1
    (Rfc9106.firstBlock parts count 1) =
      startedLanes parts (count + 1) := by
  funext lane column
  unfold Rfc9106.put startedLanes
  by_cases own : lane = count
  · subst own
    by_cases zero : column = 0
    · subst zero
      rw [if_neg (by omega), if_pos ⟨rfl, rfl⟩, if_pos (by omega)]
    · by_cases one : column = 1
      · subst one
        rw [if_pos ⟨rfl, rfl⟩, if_pos (by omega)]
      · rw [if_neg (by omega), if_neg (by omega), if_neg (by omega), if_neg (by omega)]
  · rw [if_neg (by omega), if_neg (by omega)]
    by_cases before : lane < count ∧ column < 2
    · rw [if_pos before, if_pos (by omega)]
    · rw [if_neg before, if_neg (by omega)]

section
variable {sizes : Sizes} (admitted : Admitted sizes)
include admitted

theorem fillFirst_matches (blake2b : Bytes → Nat → Bytes) (parts : Parts) (hash : parts.hash = hprimeBytes blake2b) :
    Matches ((List.range (layoutOf sizes).lanes).foldl (fun (mem : Memory (layoutOf sizes)) lane =>
      (mem.set (lane * sizes.columns) (blockFromBytes
      (hprimeBytes blake2b (parts.h0 ++ (leBytes 4 0 ++ leBytes 4 lane)) 1024))).set
        (lane * sizes.columns + 1) (blockFromBytes (hprimeBytes blake2b (parts.h0 ++ (leBytes 4 1 ++ leBytes 4 lane)) 1024)))
      (.build (layoutOf sizes).mBlocks fun _ => zeroBlock)) (Rfc9106.start parts) := by
  have columns := admitted.columns_segment
  have two := admitted.segment_two
  have blank : Matches (.build (layoutOf sizes).mBlocks fun _ => zeroBlock) (startedLanes parts 0) := by
    intro lane inside column low
    rw [Vec.get_build _ (show _ < (layoutOf sizes).mBlocks from place_inside admitted inside low), view_zeroBlock,
      startedLanes,
      if_neg (by omega)]
  have first (lane column : Nat) : view (blockFromBytes
    (hprimeBytes blake2b (parts.h0 ++ (leBytes 4 column ++ leBytes 4 lane)) 1024)) =
      Rfc9106.firstBlock parts lane column := by
    rw [view_blockFromBytes, Rfc9106.firstBlock, hash]
  have front {count : Nat} (few : count ≤ sizes.p) :
    Matches ((List.range count).foldl (fun (mem : Memory (layoutOf sizes)) lane =>
      (mem.set (lane * sizes.columns) (blockFromBytes
        (hprimeBytes blake2b (parts.h0 ++ (leBytes 4 0 ++ leBytes 4 lane)) 1024))).set
        (lane * sizes.columns + 1) (blockFromBytes (hprimeBytes blake2b (parts.h0 ++ (leBytes 4 1 ++ leBytes 4 lane)) 1024)))
      (.build (layoutOf sizes).mBlocks fun _ => zeroBlock)) (startedLanes parts count) := by
    induction count with
    | zero => exact blank
    | succ count ih =>
      rw [List.range_succ, List.foldl_append, ← put_started]
      have row : count < sizes.p := by omega
      have zeroth := (ih (by omega)).put admitted row (show 0 < sizes.columns by omega) (first count 0)
      exact zeroth.put admitted row (show 1 < sizes.columns by omega) (first count 1)
  intro lane inside column low
  refine (front (Nat.le_refl sizes.p) lane inside column low).trans ?_
  unfold startedLanes Rfc9106.start
  by_cases early : column < 2
  · rw [if_pos ⟨inside, early⟩, if_pos early]
  · rw [if_neg (by omega), if_neg early]

end

end Hiya.Pm.Argon2
