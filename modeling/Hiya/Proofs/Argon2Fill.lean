import Mathlib.Tactic.Ring
import Hiya.Proofs.Argon2Blocks

/-! The loops that fill the memory, against RFC 9106. The program computes the place of a
reference with a start and a size; in the RFC these are a list of columns. -/

namespace Hiya.Pm.Argon2
open Library
open Rfc9106 (Sizes)

/-- The sizes of a memory that the parameter check admits. -/
structure Admitted (sizes : Sizes) : Prop where
  lanes : 0 < sizes.p
  fewLanes : sizes.p ≤ 8
  memory : 8 * sizes.p ≤ sizes.m
  smallMemory : sizes.m ≤ 2 ^ 20
  fewPasses : sizes.t ≤ 10

def layoutOf (sizes : Sizes) : Layout where
  lanes := sizes.p
  laneLen := sizes.columns
  segLen := sizes.segment
  mBlocks := sizes.blocks
  tCost := sizes.t

section
variable {sizes : Sizes} (admitted : Admitted sizes)
include admitted

theorem Admitted.columns_eq : sizes.columns = 4 * (sizes.m / (4 * sizes.p)) := by
  have lanes := admitted.lanes
  unfold Sizes.columns Sizes.blocks
  rw [Nat.mul_assoc, Nat.mul_left_comm, Nat.mul_div_cancel_left _ lanes]

theorem Admitted.segment_eq : sizes.segment = sizes.m / (4 * sizes.p) := by
  unfold Sizes.segment
  rw [admitted.columns_eq, Nat.mul_div_cancel_left _ (by decide)]

theorem Admitted.columns_segment : sizes.columns = 4 * sizes.segment := by
  rw [admitted.columns_eq, admitted.segment_eq]

theorem Admitted.blocks_columns : sizes.blocks = sizes.p * sizes.columns := by
  rw [admitted.columns_eq, Sizes.blocks, Nat.mul_assoc, Nat.mul_left_comm]

theorem Admitted.segment_two : 2 ≤ sizes.segment := by
  have lanes := admitted.lanes
  have memory := admitted.memory
  rw [admitted.segment_eq, Nat.le_div_iff_mul_le (by omega)]
  omega

theorem Admitted.columns_small : sizes.columns ≤ 2 ^ 20 := by
  rw [admitted.columns_eq]
  have few : 4 * (sizes.m / (4 * sizes.p)) ≤ 4 * (sizes.m / 4) :=
    Nat.mul_le_mul_left 4 (Nat.div_le_div_left (Nat.le_mul_of_pos_right 4 admitted.lanes) (by decide))
  have memory := admitted.smallMemory
  omega

end

theorem map_range_add {α : Type} (value : Nat → α) (first second : Nat) :
    (List.range (first + second)).map value = (List.range first).map value ++ (List.range second).map fun k => value
    (first + k) := by
  rw [List.range_add, List.map_append, List.map_map]
  rfl

def area (sizes : Sizes) (pass slice index : Nat) (ownLane : Bool) : Nat :=
  let finished := if pass = 0 then slice * sizes.segment else 3 * sizes.segment
  if ownLane then finished + index - 1 else if index = 0 then finished - 1 else finished

def startColumn (sizes : Sizes) (pass slice : Nat) : Nat :=
  if pass = 0 then 0 else if slice = 3 then 0 else (slice + 1) * sizes.segment

section
variable {sizes : Sizes}

theorem finished_first (slice : Nat) :
    ((List.range slice).flatMap fun slice => Rfc9106.segmentColumns sizes slice sizes.segment) =
    List.range (slice * sizes.segment) := by
  induction slice with
  | zero => simp
  | succ slice ih =>
    rw [List.range_succ, List.flatMap_append, ih, Nat.succ_mul, List.range_add]
    simp [Rfc9106.segmentColumns]

/-- A segment in the turn of slices, counted on past the end of the lane. -/
theorem segment_turned {turn count : Nat} (few : count ≤ sizes.segment) :
    Rfc9106.segmentColumns sizes (turn % 4) count = (List.range count).map fun k => (turn * sizes.segment + k) % (4 *
    sizes.segment) := by
  refine List.map_congr_left fun k inside => ?_
  have less : k < sizes.segment := Nat.lt_of_lt_of_le (List.mem_range.mp inside) few
  have whole : turn * sizes.segment + k = turn % 4 * sizes.segment + k + 4 * sizes.segment * (turn / 4) := by
    have split := Nat.mod_add_div turn 4
    calc turn * sizes.segment + k = (turn % 4 + 4 * (turn / 4)) * sizes.segment + k := by rw [split]
      _ = turn % 4 * sizes.segment + k + 4 * sizes.segment * (turn / 4) := by ring
  have bound : turn % 4 * sizes.segment + k < 4 * sizes.segment := by
    have small : turn % 4 * sizes.segment ≤ 3 * sizes.segment := Nat.mul_le_mul_right _ (by omega)
    omega
  rw [whole, Nat.add_mul_mod_self_left, Nat.mod_eq_of_lt bound]

/-- Everything that was computed before a block, in a later pass. -/
theorem computed_later {slice index : Nat} (inside : slice < 4) (few : index ≤ sizes.segment) :
    ([(slice + 1) % 4, (slice + 2) % 4, (slice +
    3) % 4].flatMap fun slice => Rfc9106.segmentColumns sizes slice sizes.segment) ++
      Rfc9106.segmentColumns sizes slice index =
      (List.range (3 * sizes.segment + index)).map fun k => ((slice + 1) * sizes.segment + k) % (4 * sizes.segment) := by
  have own : Rfc9106.segmentColumns sizes slice index = Rfc9106.segmentColumns sizes ((slice + 4) % 4) index := by
    rw [Nat.add_mod_right, Nat.mod_eq_of_lt inside]
  have shape : 3 * sizes.segment + index = sizes.segment + (sizes.segment + (sizes.segment + index)) := by omega
  rw [own, shape, map_range_add, map_range_add, map_range_add]
  simp only [List.flatMap_cons, List.flatMap_nil, List.append_nil, segment_turned (Nat.le_refl _), segment_turned few,
    List.append_assoc]
  have turned (turn : Nat) (k : Nat) : turn * sizes.segment + (sizes.segment + k) = (turn + 1) * sizes.segment + k := by ring
  simp only [turned]

/-- The columns a block can refer to, in the order in which they were computed. -/
theorem window_eq (admitted : Admitted sizes) {pass slice index : Nat} (inside : slice < 4)
    (few : index < sizes.segment) (ownLane : Bool) :
    Rfc9106.window sizes pass slice index ownLane =
      (List.range (area sizes pass slice index ownLane)).map fun k => (startColumn sizes pass slice + k) % sizes.columns := by
  have lane := admitted.columns_segment
  have cut (count : Nat) (value : Nat → Nat) : ((List.range count).map value).dropLast =
    (List.range (count - 1)).map value := by
    cases count with
    | zero => rfl
    | succ count => rw [List.range_succ, List.map_append, List.map_singleton, List.dropLast_concat, Nat.add_sub_cancel]
  unfold Rfc9106.window Rfc9106.finishedSlices area startColumn
  by_cases first : pass = 0
  · have plain {count : Nat} (small : count ≤ sizes.columns) :
      List.range count = (List.range count).map fun k => (0 + k) % sizes.columns := by
      refine ((List.map_congr_left fun k less => ?_).trans (List.map_id' _)).symm
      rw [Nat.zero_add, Nat.mod_eq_of_lt (Nat.lt_of_lt_of_le (List.mem_range.mp less) small)]
    have room : slice * sizes.segment ≤ 3 * sizes.segment := Nat.mul_le_mul_right _ (by omega)
    simp only [if_pos first, finished_first]
    have own : List.range (slice * sizes.segment) ++ Rfc9106.segmentColumns sizes slice index =
      List.range (slice * sizes.segment + index) :=
      (List.range_add ..).symm
    rw [own, @plain (slice * sizes.segment + index) (by omega), cut, @plain (slice * sizes.segment) (by omega), cut]
    split
    · rfl
    · split <;> rfl
  · have wrap (k : Nat) : ((slice + 1) * sizes.segment + k) % (4 * sizes.segment) =
        ((if slice = 3 then 0 else (slice + 1) * sizes.segment) + k) % sizes.columns := by
      rw [lane]
      split
      next last =>
        rw [last, Nat.zero_add, Nat.add_mod_left]
      next => rfl
    simp only [if_neg first, computed_later inside (Nat.le_of_lt few), cut, wrap]
    have none := computed_later inside (Nat.zero_le sizes.segment)
    rw [show Rfc9106.segmentColumns sizes slice 0 = [] from rfl, List.append_nil, Nat.add_zero] at none
    rw [none, cut]
    simp only [wrap]
    split
    · rfl
    · split <;> rfl

theorem area_pos (admitted : Admitted sizes) {pass slice index : Nat} {ownLane : Bool}
    (later : pass = 0 → slice = 0 → 2 ≤ index ∧ ownLane = true) : 0 < area sizes pass slice index ownLane := by
  have two := admitted.segment_two
  have room (positive : slice ≠ 0) : sizes.segment ≤ slice * sizes.segment := Nat.le_mul_of_pos_left _ (by omega)
  unfold area
  by_cases first : pass = 0
  · by_cases zero : slice = 0
    · obtain ⟨behind, own⟩ := later first zero
      simp only [own, if_true, if_pos first, zero]
      omega
    · have enough := room zero
      simp only [if_pos first]
      split
      · omega
      · split <;> omega
  · simp only [if_neg first]
    split
    · omega
    · split <;> omega

theorem area_small (admitted : Admitted sizes) {pass slice index : Nat} (inside : slice < 4)
    (few : index < sizes.segment) (ownLane : Bool) :
    area sizes pass slice index ownLane < sizes.columns := by
  have lane := admitted.columns_segment
  have room : slice * sizes.segment ≤ 3 * sizes.segment := Nat.mul_le_mul_right _ (by omega)
  unfold area
  by_cases first : pass = 0
  · simp only [if_pos first]
    split
    · omega
    · split <;> omega
  · simp only [if_neg first]
    split
    · omega
    · split <;> omega

end

theorem scaled_lt {count : Nat} (positive : 0 < count) (j1 : UInt32) : count * (j1.toNat ^ 2 / 2 ^ 32) / 2 ^ 32 < count := by
  have small := j1.toNat_lt
  have square : j1.toNat ^ 2 / 2 ^ 32 < 2 ^ 32 := by
    rw [Nat.div_lt_iff_lt_mul (by decide), Nat.pow_two]
    exact Nat.mul_lt_mul'' small small
  rw [Nat.div_lt_iff_lt_mul (by decide)]
  exact Nat.mul_lt_mul_of_pos_left square positive

/-- The tail of `index_alpha` in natural numbers: nothing overflows. -/
theorem pick_toNat {count first laneLen : Nat} (positive : 0 < count) (small : count < 2 ^ 31) (low : first < 2 ^ 31)
    (lane : laneLen < 2 ^ 31)
    (j1 : UInt32) :
    ((UInt32.ofNat first + (UInt32.ofNat count - (1 :
    UInt32) - (((UInt32.ofNat count).toUInt64 * ((j1.toUInt64 * j1.toUInt64) >>> 32)) >>> 32).toUInt32)) %
      UInt32.ofNat laneLen).toNat = (first + (count - 1 - count * (j1.toNat ^ 2 / 2 ^ 32) / 2 ^ 32)) % laneLen := by
  have less := scaled_lt positive j1
  have rand := j1.toNat_lt
  have thirtyTwo : (32 : UInt64).toNat = 32 := rfl
  have square : (j1.toUInt64 * j1.toUInt64).toNat = j1.toNat ^ 2 := by
    rw [UInt64.toNat_mul, UInt32.toNat_toUInt64, Nat.pow_two]
    exact Nat.mod_eq_of_lt (Nat.lt_of_lt_of_eq (Nat.mul_lt_mul'' rand rand) (by decide))
  have y : ((j1.toUInt64 * j1.toUInt64) >>> 32).toNat = j1.toNat ^ 2 / 2 ^ 32 := by
    rw [UInt64.toNat_shiftRight, square, thirtyTwo, Nat.shiftRight_eq_div_pow]
  have fits {n : Nat} (below : n < 2 ^ 31) : (UInt32.ofNat n).toNat = n :=
    UInt32.toNat_ofNat_of_lt' (Nat.lt_trans below (by decide))
  have size := fits small
  have smallSquare : j1.toNat ^ 2 / 2 ^ 32 < 2 ^ 32 := by
    rw [Nat.div_lt_iff_lt_mul (by decide), Nat.pow_two]
    exact Nat.mul_lt_mul'' rand rand
  have z : (((UInt32.ofNat count).toUInt64 * ((j1.toUInt64 * j1.toUInt64) >>> 32)) >>> 32).toNat = count *
    (j1.toNat ^ 2 / 2 ^ 32) / 2 ^ 32 := by
    rw [UInt64.toNat_shiftRight, UInt64.toNat_mul, UInt32.toNat_toUInt64, size, y, thirtyTwo, Nat.shiftRight_eq_div_pow]
    rw [Nat.mod_eq_of_lt (Nat.lt_of_lt_of_eq (Nat.mul_lt_mul'' (show count < 2 ^ 32 by omega) smallSquare) (by decide))]
  generalize count * (j1.toNat ^ 2 / 2 ^ 32) / 2 ^ 32 = drop at *
  have one : (1 : UInt32).toNat = 1 := rfl
  have narrow : ((((UInt32.ofNat count).toUInt64 * ((j1.toUInt64 * j1.toUInt64) >>> 32)) >>> 32).toUInt32).toNat = drop := by
    rw [UInt64.toNat_toUInt32, z]
    exact Nat.mod_eq_of_lt (by omega)
  rw [UInt32.toNat_mod, UInt32.toNat_add, UInt32.toNat_sub_of_le _ _ ?_, UInt32.toNat_sub_of_le _ _ ?_, size, narrow, one,
    fits low, fits lane,
    Nat.mod_eq_of_lt (show first + (count - 1 - drop) < 2 ^ 32 by omega)]
  · rw [UInt32.le_iff_toNat_le, size, one]
    omega
  · rw [UInt32.le_iff_toNat_le, UInt32.toNat_sub_of_le _ _ (by rw [UInt32.le_iff_toNat_le, size, one]; omega), size,
      one, narrow]
    omega

theorem ofNat_eq_ofNat {first second : Nat} (one : first < 2 ^ 32) (two : second < 2 ^ 32) :
    UInt32.ofNat first = UInt32.ofNat second ↔ first = second := by
  refine ⟨fun same => ?_, congrArg _⟩
  have numbers := congrArg UInt32.toNat same
  rwa [UInt32.toNat_ofNat_of_lt' one, UInt32.toNat_ofNat_of_lt' two] at numbers

structure Asked (sizes : Sizes) (pass slice index lane refLane : Nat) : Prop where
  fewPasses : pass < 2 ^ 32
  fewSlices : slice < 4
  inSegment : index < sizes.segment
  inside : lane < sizes.p
  refInside : refLane < sizes.p
  later : pass = 0 → slice = 0 → 2 ≤ index ∧ refLane = lane

section
variable {sizes : Sizes} {pass slice index lane refLane : Nat}

theorem indexAlpha_toNat (admitted : Admitted sizes) (asked : Asked sizes pass slice index lane refLane) (j1 : UInt32) :
    (indexAlpha (.ofNat pass) (.ofNat slice) (.ofNat index) (.ofNat lane) (.ofNat refLane) (.ofNat sizes.columns)
    (.ofNat sizes.segment) j1).toNat =
      (startColumn sizes pass slice + (area sizes pass slice index (refLane = lane) - 1 -
        area sizes pass slice index (refLane = lane) * (j1.toNat ^ 2 / 2 ^ 32) / 2 ^ 32)) % sizes.columns := by
  have columns := admitted.columns_segment
  have small := admitted.columns_small
  have two := admitted.segment_two
  have inside := asked.fewSlices
  have less := asked.inSegment
  have lanes := admitted.fewLanes
  have here := asked.inside
  have there := asked.refInside
  have positive : 0 < area sizes pass slice index (refLane = lane) := by
    refine area_pos admitted fun first zero => ?_
    obtain ⟨behind, own⟩ := asked.later first zero
    exact ⟨behind, decide_eq_true own⟩
  have bounded := @area_small sizes admitted pass slice index inside less (refLane = lane)
  have passZero : UInt32.ofNat pass = 0 ↔ pass = 0 := ofNat_eq_ofNat asked.fewPasses (by decide)
  have sliceZero : UInt32.ofNat slice = 0 ↔ slice = 0 := ofNat_eq_ofNat (by omega) (by decide)
  have sliceThree : UInt32.ofNat slice = 4 - 1 ↔ slice = 3 :=
    ofNat_eq_ofNat (show slice < 2 ^ 32 by omega) (show 3 < 2 ^ 32 by decide)
  have indexZero : UInt32.ofNat index = 0 ↔ index = 0 := ofNat_eq_ofNat (by omega) (by decide)
  have sameLane : UInt32.ofNat refLane = UInt32.ofNat lane ↔ refLane = lane := ofNat_eq_ofNat (by omega) (by omega)
  have one : (1 : UInt32) = UInt32.ofNat 1 := rfl
  have three : UInt32.ofNat sizes.columns - UInt32.ofNat sizes.segment = UInt32.ofNat (3 * sizes.segment) := by
    rw [← UInt32.ofNat_sub (by omega)]
    exact congrArg _ (by omega)
  have room : slice ≠ 0 → sizes.segment ≤ slice * sizes.segment := fun nonzero => Nat.le_mul_of_pos_left _ (by omega)
  have areaEq : (if UInt32.ofNat pass = 0 then
        if UInt32.ofNat slice = 0 then UInt32.ofNat index - 1
        else if UInt32.ofNat refLane = UInt32.ofNat lane then UInt32.ofNat slice * UInt32.ofNat sizes.segment +
          UInt32.ofNat index - 1
        else if UInt32.ofNat index = 0 then UInt32.ofNat slice * UInt32.ofNat sizes.segment - 1
        else UInt32.ofNat slice * UInt32.ofNat sizes.segment
      else if UInt32.ofNat refLane = UInt32.ofNat lane then UInt32.ofNat sizes.columns - UInt32.ofNat sizes.segment +
        UInt32.ofNat index - 1
      else if UInt32.ofNat index = 0 then UInt32.ofNat sizes.columns - UInt32.ofNat sizes.segment - 1
      else UInt32.ofNat sizes.columns - UInt32.ofNat sizes.segment) =
        UInt32.ofNat (area sizes pass slice index (refLane = lane)) := by
    simp only [passZero, sliceZero, indexZero, sameLane, three, one, ← UInt32.ofNat_mul, ← UInt32.ofNat_add]
    unfold area
    by_cases first : pass = 0
    · by_cases zero : slice = 0
      · obtain ⟨behind, own⟩ := asked.later first zero
        simp only [if_pos first, own, decide_true, if_true, ← UInt32.ofNat_sub (show 1 ≤ index by omega), zero, Nat.zero_mul,
          Nat.zero_add]
      · have enough := room zero
        simp only [if_pos first, if_neg zero, decide_eq_true_eq,
          ← UInt32.ofNat_sub (show 1 ≤ slice * sizes.segment + index by omega),
          ← UInt32.ofNat_sub (show 1 ≤ slice * sizes.segment by omega)]
        split_ifs <;> rfl
    · simp only [if_neg first, decide_eq_true_eq, ← UInt32.ofNat_sub (show 1 ≤ 3 * sizes.segment + index by omega),
        ← UInt32.ofNat_sub (show 1 ≤ 3 * sizes.segment by omega)]
      split_ifs <;> rfl
  have startEq : (if UInt32.ofNat pass = 0 then 0 else if UInt32.ofNat slice = 4 - 1 then 0
      else (UInt32.ofNat slice + 1) * UInt32.ofNat sizes.segment) = UInt32.ofNat (startColumn sizes pass slice) := by
    simp only [passZero, sliceThree]
    simp only [one, ← UInt32.ofNat_mul, ← UInt32.ofNat_add]
    unfold startColumn
    split_ifs <;> rfl
  have low : startColumn sizes pass slice < 2 ^ 31 := by
    have most : (slice + 1) * sizes.segment ≤ 4 * sizes.segment := Nat.mul_le_mul_right _ (by omega)
    unfold startColumn
    split_ifs <;> omega
  have nonzero : UInt32.ofNat (area sizes pass slice index (refLane = lane)) ≠ 0 :=
    fun zero => Nat.ne_of_gt positive ((ofNat_eq_ofNat (by omega) (by decide)).mp zero)
  unfold indexAlpha
  simp only [areaEq, startEq, if_neg nonzero]
  exact pick_toNat positive (by omega) low (by omega) j1

def refLaneOf (sizes : Sizes) (pass slice lane : Nat) (pseudo : UInt64) : Nat :=
  if pass = 0 ∧ slice = 0 then lane else pseudo.toNat / 2 ^ 32 % sizes.p

def picked (columns : List Nat) (j1 : Nat) : Nat :=
    columns.getD (columns.length - 1 - columns.length * (j1 ^ 2 / 2 ^ 32) / 2 ^ 32) 0

theorem refLane_toNat (admitted : Admitted sizes) (pseudo : UInt64) :
    ((pseudo >>> 32) % UInt64.ofNat sizes.p).toNat = pseudo.toNat / 2 ^ 32 % sizes.p := by
  have few := admitted.fewLanes
  rw [UInt64.toNat_mod, UInt64.toNat_shiftRight, UInt64.toNat_ofNat_of_lt' (Nat.lt_of_le_of_lt few (by decide)),
    Nat.shiftRight_eq_div_pow]
  rfl

/-- The program refers to the block the RFC refers to. -/
theorem refPlace_eq (admitted : Admitted sizes) (fewPasses : pass < 2 ^ 32) (fewSlices : slice < 4)
    (inSegment : index < sizes.segment)
    (inside : lane < sizes.p) (later : pass = 0 → slice = 0 → 2 ≤ index) (pseudo : UInt64) :
    refPlace (layoutOf sizes) pass lane slice index pseudo =
      (Rfc9106.reference sizes pass slice lane index pseudo).1 * sizes.columns +
      (Rfc9106.reference sizes pass slice lane index pseudo).2 ∧
    (Rfc9106.reference sizes pass slice lane index pseudo).1 < sizes.p ∧
    (Rfc9106.reference sizes pass slice lane index pseudo).2 < sizes.columns := by
  have two := admitted.segment_two
  have columns := admitted.columns_segment
  have ref : refLaneOf sizes pass slice lane pseudo < sizes.p := by
    unfold refLaneOf
    split
    · exact inside
    · exact Nat.mod_lt _ admitted.lanes
  have asked : Asked sizes pass slice index lane (refLaneOf sizes pass slice lane pseudo) :=
    ⟨fewPasses, fewSlices, inSegment, inside, ref, fun first zero => ⟨later first zero, if_pos ⟨first, zero⟩⟩⟩
  have low : pseudo.toUInt32.toNat = pseudo.toNat % 2 ^ 32 := UInt64.toNat_toUInt32 pseudo
  have alpha := indexAlpha_toNat admitted asked pseudo.toUInt32
  have column : (Rfc9106.reference sizes pass slice lane index pseudo).2 =
      (indexAlpha (.ofNat pass) (.ofNat slice) (.ofNat index) (.ofNat lane) (.ofNat (refLaneOf sizes pass slice lane pseudo))
        (.ofNat sizes.columns) (.ofNat sizes.segment) pseudo.toUInt32).toNat := by
    have positive : 0 < area sizes pass slice index (refLaneOf sizes pass slice lane pseudo = lane) :=
      area_pos admitted fun first zero => ⟨later first zero, decide_eq_true (if_pos ⟨first, zero⟩)⟩
    rw [alpha, low]
    change picked (Rfc9106.window sizes pass slice index (refLaneOf sizes pass slice lane pseudo = lane))
      (pseudo.toNat % 2 ^ 32) = _
    rw [window_eq admitted fewSlices inSegment, picked, List.length_map, List.length_range, List.getD_eq_getElem?_getD,
      List.getElem?_map,
      List.getElem?_range (by omega)]
    rfl
  refine ⟨?_, ref, ?_⟩
  · rw [column]
    unfold refPlace layoutOf
    simp only [refLane_toNat admitted]
    rfl
  · rw [column, alpha]
    exact Nat.mod_lt _ (by omega)

end

theorem view_eq_ofWords {block : Block} {words : Nat → UInt64} :
    view block = Rfc9106.ofWords words ↔ ∀ n < 128, block.get n = words n := by
  constructor
  · intro same n inside
    have word := congrArg (Rfc9106.word · ⟨n, inside⟩) same
    have place : 16 * (n / 16) + 2 * (n % 16 / 2) + n % 2 = n := by omega
    rw [word_view] at word
    exact word.trans (congrArg words place)
  · intro same
    funext i j k
    exact same _ (by omega)

/-- How many blocks of addresses the program has drawn before it comes to a block. In the
first segment it starts at the third block and so misses the first draw. -/
def drawn (slice index : Nat) : Nat := (index + 127) / 128 - if slice = 0 then 1 else 0

def codeWord (sizes : Sizes) (pass lane slice index : Nat) : UInt64 :=
  if slice = 0 then if index < 128 then 0 else Rfc9106.addressWord sizes pass lane slice (index - 128)
  else Rfc9106.addressWord sizes pass lane slice index

structure Drawn (sizes : Sizes) (pass lane slice index : Nat) (state : Segment (layoutOf sizes)) : Prop where
  input : view state.inputBlock = Rfc9106.addressInput sizes pass lane slice (drawn slice index)
  addresses : view state.addrBlock =
    if drawn slice index = 0 then Rfc9106.zero else Rfc9106.addressBlock sizes pass lane slice (drawn slice index)

section
variable {sizes : Sizes} {pass lane slice index : Nat}

theorem view_firstInput : view (firstInput (layoutOf sizes) pass lane slice) =
    Rfc9106.addressInput sizes pass lane slice 0 := by
  refine view_eq_ofWords.mpr fun n inside => ?_
  unfold firstInput
  rw [Vec.get_set _ _ (by decide), Vec.get_set _ _ (by decide), Vec.get_set _ _ (by decide), Vec.get_set _ _ (by decide),
    Vec.get_set _ _ (by decide), Vec.get_set _ _ (by decide), Vec.get_build _ (show n < blockWords from inside)]
  match n with
  | 0 | 1 | 2 | 3 | 4 | 5 | 6 => rfl
  | n + 7 => rfl

theorem drawn_start (mem : Memory (layoutOf sizes)) :
    Drawn sizes 0 lane slice (startIndex 0 slice)
      { mem, inputBlock := firstInput (layoutOf sizes) 0 lane slice, addrBlock := zeroBlock } := by
  have none : drawn slice (startIndex 0 slice) = 0 := by
    unfold drawn startIndex
    by_cases first : slice = 0
    · rw [if_pos ⟨rfl, first⟩, if_pos first]
    · rw [if_neg fun both => first both.2, if_neg first]
  refine ⟨?_, ?_⟩
  · rw [none]
    exact view_firstInput
  · rw [none, if_pos rfl]
    exact view_zeroBlock

theorem drawn_next {state : Segment (layoutOf sizes)} (state_ok : Drawn sizes pass lane slice index state)
    (more : drawn slice (index + 1) = drawn slice index + 1) : Drawn sizes pass lane slice (index + 1)
    (nextAddresses state) := by
  have words := view_eq_ofWords.mp state_ok.input
  have input : view (nextAddresses state).inputBlock = Rfc9106.addressInput sizes pass lane slice
    (drawn slice index + 1) := by
    refine view_eq_ofWords.mpr fun n inside => ?_
    change (state.inputBlock.set 6 (state.inputBlock.get 6 + 1)).get n = _
    rw [Vec.get_set _ _ (by decide), words n inside, words 6 (by decide)]
    split
    next six =>
      subst six
      exact (UInt64.ofNat_add (drawn slice index) 1).symm
    next other =>
      match n with
      | 0 | 1 | 2 | 3 | 4 | 5 => rfl
      | 6 => exact absurd rfl other
      | n + 7 => rfl
  refine ⟨?_, ?_⟩
  · rw [more]
    exact input
  · rw [more, if_neg (Nat.succ_ne_zero _), Rfc9106.addressBlock, ← input, ← view_zeroBlock]
    unfold nextAddresses
    rw [view_compress, view_compress]

/-- The word of a block, and the state behind it. -/
theorem pseudoRand_independent {state : Segment (layoutOf sizes)} (state_ok : Drawn sizes pass lane slice index state)
    (later : slice = 0 → 2 ≤ index) (prev : Block) :
    (pseudoRand true prev index state).1 = codeWord sizes pass lane slice index ∧
      Drawn sizes pass lane slice (index + 1) (pseudoRand true prev index state).2 ∧
      (pseudoRand true prev index state).2.mem = state.mem := by
  have after : Drawn sizes pass lane slice (index + 1) (pseudoRand true prev index state).2 := by
    unfold pseudoRand
    simp only [if_true]
    split
    next full =>
      refine drawn_next state_ok ?_
      unfold drawn
      split
      next first =>
        have behind := later first
        omega
      next => omega
    next rest =>
      have same : drawn slice (index + 1) = drawn slice index := by
        unfold drawn
        omega
      exact ⟨same ▸ state_ok.input, same ▸ state_ok.addresses⟩
  refine ⟨?_, after, ?_⟩
  · have place : index % 128 < 128 := Nat.mod_lt _ (by decide)
    have shown : (pseudoRand true prev index state).1 =
      Rfc9106.word (view (pseudoRand true prev index state).2.addrBlock) ⟨index % 128, place⟩ := by
      rw [word_view]
      unfold pseudoRand
      simp only [if_true]
    rw [shown, after.addresses]
    unfold codeWord
    by_cases first : slice = 0
    · have behind := later first
      have count : drawn slice (index + 1) = index / 128 := by
        unfold drawn
        rw [if_pos first]
        omega
      rw [if_pos first, count]
      by_cases low : index < 128
      · rw [if_pos low, if_pos (by omega)]
        rfl
      · rw [if_neg low, if_neg (by omega)]
        have back : (index - 128) / 128 + 1 = index / 128 := by omega
        unfold Rfc9106.addressWord
        have same : index % 128 = (index - 128) % 128 := by omega
        rw [back]
        exact congrArg (Rfc9106.word _) (Fin.ext same)
    · have count : drawn slice (index + 1) = index / 128 + 1 := by
        unfold drawn
        rw [if_neg first]
        omega
      rw [if_neg first, count, if_neg (by omega)]
      rfl
  · unfold pseudoRand
    simp only [if_true]
    split <;> rfl

end

end Hiya.Pm.Argon2
