import Hiya.Proofs.Argon2Departures

/-! The references of the filling loops. A block refers to a window of columns that were
computed before it: those of the slices that are finished, counted on past the end of the
lane into the pass before, and in its own lane the columns up to the one before the last. -/

namespace Hiya.Pm.Argon2
open Library
open Rfc9106 (Sizes)

/-- One turn of the innermost loop. -/
structure Turn where
  pass : Nat
  slice : Nat
  lane : Nat
  index : Nat
  deriving DecidableEq

/-- A turn that the loops come to. -/
structure Turn.Taken (layout : Layout) (turn : Turn) : Prop where
  pass : turn.pass < layout.tCost
  slice : turn.slice < syncPoints
  lane : turn.lane < layout.lanes
  behind : startIndex turn.pass turn.slice ≤ turn.index
  inSegment : turn.index < layout.segLen

def Turn.Before (first second : Turn) : Prop :=
  first.pass < second.pass ∨ (first.pass = second.pass ∧
    (first.slice < second.slice ∨ (first.slice = second.slice ∧
      (first.lane < second.lane ∨ (first.lane = second.lane ∧ first.index < second.index)))))

def Turn.place (layout : Layout) (turn : Turn) : Nat := currPlace layout turn.lane turn.slice turn.index

section
variable {layout : Layout}

/-- A block that was computed in this pass or in the one before; the first two of a lane
are computed in front of the first pass. -/
def Computed (layout : Layout) (turn : Turn) (place : Nat) : Prop :=
  (∃ earlier : Turn, earlier.Taken layout ∧ earlier.Before turn ∧ turn.pass ≤ earlier.pass + 1 ∧
    earlier.place layout = place) ∨
    (turn.pass = 0 ∧ ∃ lane < layout.lanes, ∃ column < 2, place = lane * layout.laneLen + column)

end

def refAreaSize (layout : Layout) (turn : Turn) (ownLane : Bool) : Int :=
  if turn.pass = 0 then
    if turn.slice = 0 then turn.index - 1
    else if ownLane then turn.slice * layout.segLen + turn.index - 1
    else if turn.index = 0 then turn.slice * layout.segLen - 1
    else turn.slice * layout.segLen
  else if ownLane then layout.laneLen - layout.segLen + turn.index - 1
  else if turn.index = 0 then layout.laneLen - layout.segLen - 1
  else layout.laneLen - layout.segLen

def startPos (layout : Layout) (turn : Turn) : Int :=
  if turn.pass = 0 then 0 else if turn.slice = 3 then 0 else (turn.slice + 1) * layout.segLen

def relativePos (areaSize : Int) (rand : Nat) : Int := areaSize - 1 - areaSize * (rand ^ 2 / 2 ^ 32) / 2 ^ 32

def refLane (layout : Layout) (turn : Turn) (rand : UInt64) : Nat :=
  if turn.pass = 0 ∧ turn.slice = 0 then turn.lane else ((rand >>> 32) % UInt64.ofNat layout.lanes).toNat

def refIndex (layout : Layout) (turn : Turn) (rand : UInt64) : UInt32 :=
  indexAlpha (.ofNat turn.pass) (.ofNat turn.slice) (.ofNat turn.index) (.ofNat turn.lane) (.ofNat (refLane layout turn rand))
    (.ofNat layout.laneLen) (.ofNat layout.segLen) rand.toUInt32

/-- Everything a reference has to be. The sizes are those of whole numbers, and none of the
differences is negative. -/
structure SoundReference (layout : Layout) (turn : Turn) (rand : UInt64) : Prop where
  lane : refLane layout turn rand < layout.lanes
  nonempty : 0 < refAreaSize layout turn (refLane layout turn rand = turn.lane)
  relative : 0 ≤ relativePos (refAreaSize layout turn (refLane layout turn rand = turn.lane)) rand.toUInt32.toNat
  bounded : startPos layout turn + refAreaSize layout turn (refLane layout turn rand = turn.lane) < 2 ^ 32
  exact : ((refIndex layout turn rand).toNat : Int) =
    (startPos layout turn + relativePos (refAreaSize layout turn (refLane layout turn rand = turn.lane))
      rand.toUInt32.toNat) %
      layout.laneLen
  below : (refIndex layout turn rand).toNat < layout.laneLen
  place : refPlace layout turn.pass turn.lane turn.slice turn.index rand =
    refLane layout turn rand * layout.laneLen + (refIndex layout turn rand).toNat
  computed : Computed layout turn (refPlace layout turn.pass turn.lane turn.slice turn.index rand)
  apart : refPlace layout turn.pass turn.lane turn.slice turn.index rand ≠ turn.place layout

section
variable {sizes : Sizes} {turn : Turn}

theorem refAreaSize_eq (admitted : Admitted sizes) (taken : turn.Taken (layoutOf sizes)) {ownLane : Bool}
    (own : turn.pass = 0 → turn.slice = 0 → ownLane = true) :
    refAreaSize (layoutOf sizes) turn ownLane = area sizes turn.pass turn.slice turn.index ownLane := by
  have columns := admitted.columns_segment
  have two := admitted.segment_two
  have behind := taken.behind
  have product : (turn.slice : Int) * (sizes.segment : Int) = ((turn.slice * sizes.segment : Nat) : Int) :=
    (Nat.cast_mul _ _).symm
  unfold refAreaSize area layoutOf
  dsimp only
  by_cases first : turn.pass = 0
  · by_cases zero : turn.slice = 0
    · have late : 2 ≤ turn.index := by rwa [startIndex, if_pos ⟨first, zero⟩] at behind
      simp only [if_pos first, if_pos zero, own first zero, if_true]
      rw [zero, Nat.zero_mul]
      omega
    · have room : sizes.segment ≤ turn.slice * sizes.segment := Nat.le_mul_of_pos_left _ (by omega)
      simp only [if_pos first, if_neg zero, product]
      split_ifs <;> omega
  · simp only [if_neg first]
    split_ifs <;> omega

/-- Where the column of a reference lies: behind the slice, which is the pass before, or in
front of it, or, in the own lane, in front of the block before the last. -/
theorem column_cases (admitted : Admitted sizes) {pass slice index : Nat} (inside : slice < 4)
    (few : index < sizes.segment) {ownLane : Bool}
    {step : Nat} (within : step < area sizes pass slice index ownLane) :
    (pass ≠ 0 ∧ (slice + 1) * sizes.segment ≤ (startColumn sizes pass slice + step) % sizes.columns) ∨
      (startColumn sizes pass slice + step) % sizes.columns < slice * sizes.segment ∨
      (ownLane = true ∧ (startColumn sizes pass slice + step) % sizes.columns + 1 < slice * sizes.segment + index) := by
  have columns := admitted.columns_segment
  have two := admitted.segment_two
  have most : slice * sizes.segment ≤ 3 * sizes.segment := Nat.mul_le_mul_right _ (by omega)
  have next : (slice + 1) * sizes.segment = slice * sizes.segment + sizes.segment := Nat.succ_mul _ _
  unfold area at within
  unfold startColumn
  rw [columns]
  by_cases first : pass = 0
  · simp only [if_pos first, Nat.zero_add] at within ⊢
    have small : step < 4 * sizes.segment := by split_ifs at within <;> omega
    rw [Nat.mod_eq_of_lt small]
    cases ownLane with
    | true =>
      simp only [if_true] at within
      exact .inr (.inr ⟨rfl, by omega⟩)
    | false =>
      simp only [Bool.false_eq_true, if_false] at within
      refine .inr (.inl ?_)
      split_ifs at within <;> omega
  · simp only [if_neg first] at within ⊢
    by_cases last : slice = 3
    · rw [if_pos last, Nat.zero_add]
      subst last
      have small : step < 4 * sizes.segment := by split_ifs at within <;> omega
      rw [Nat.mod_eq_of_lt small]
      cases ownLane with
      | true =>
        simp only [if_true] at within
        exact .inr (.inr ⟨rfl, by omega⟩)
      | false =>
        simp only [Bool.false_eq_true, if_false] at within
        refine .inr (.inl ?_)
        split_ifs at within <;> omega
    · rw [if_neg last]
      by_cases wraps : (slice + 1) * sizes.segment + step < 4 * sizes.segment
      · rw [Nat.mod_eq_of_lt wraps]
        exact .inl ⟨first, by omega⟩
      · have turned : ((slice + 1) * sizes.segment + step) % (4 * sizes.segment) = (slice + 1) * sizes.segment +
          step - 4 * sizes.segment := by
          rw [Nat.mod_eq_sub_mod (by omega), Nat.mod_eq_of_lt]
          split_ifs at within <;> omega
        rw [turned]
        cases ownLane with
        | true =>
          simp only [if_true] at within
          exact .inr (.inr ⟨rfl, by omega⟩)
        | false =>
          simp only [Bool.false_eq_true, if_false] at within
          refine .inr (.inl ?_)
          split_ifs at within <;> omega

def turnOf (sizes : Sizes) (pass lane column : Nat) : Turn where
  pass
  slice := column / sizes.segment
  lane
  index := column % sizes.segment

theorem turnOf_place (pass lane column : Nat) : (turnOf sizes pass lane column).place (layoutOf sizes) = lane *
    sizes.columns + column := by
  unfold Turn.place currPlace turnOf layoutOf
  dsimp only
  rw [Nat.add_assoc, Nat.div_add_mod']

theorem turnOf_taken (admitted : Admitted sizes) {pass lane column : Nat} (early : pass < sizes.t) (inside : lane < sizes.p)
    (low : column < sizes.columns) (behind : pass = 0 → 2 ≤ column) :
    (turnOf sizes pass lane column).Taken (layoutOf sizes) := by
  have columns := admitted.columns_segment
  have two := admitted.segment_two
  have slice : column / sizes.segment < 4 := by
    rw [Nat.div_lt_iff_lt_mul (by omega)]
    omega
  refine ⟨early, slice, inside, ?_, Nat.mod_lt _ (by omega)⟩
  unfold turnOf startIndex
  dsimp only
  split
  next start =>
    have small : column < sizes.segment := Nat.lt_of_div_eq_zero (by omega) start.2
    rw [Nat.mod_eq_of_lt small]
    exact behind start.1
  next => exact Nat.zero_le _

/-- A column in front of a block of its lane, or of its slice in another lane, is written earlier in the pass. -/
theorem turnOf_before (admitted : Admitted sizes) {lane column : Nat} (few : turn.index < sizes.segment)
    (front : column < turn.slice * sizes.segment ∨ (lane = turn.lane ∧ column < turn.slice * sizes.segment + turn.index)) :
    (turnOf sizes turn.pass lane column).Before turn := by
  have two := admitted.segment_two
  refine .inr ⟨rfl, ?_⟩
  unfold turnOf
  dsimp only
  rcases front with slice | ⟨own, less⟩
  · exact .inl ((Nat.div_lt_iff_lt_mul (by omega)).mpr slice)
  · by_cases slice : column < turn.slice * sizes.segment
    · exact .inl ((Nat.div_lt_iff_lt_mul (by omega)).mpr slice)
    · have here : column / sizes.segment = turn.slice := by
        refine Nat.div_eq_of_lt_le (by omega) ?_
        rw [Nat.succ_mul]
        omega
      refine .inr ⟨here, .inr ⟨own, ?_⟩⟩
      have split := Nat.div_add_mod' column sizes.segment
      rw [here] at split
      omega

/-- The natural number behind a reference: a step into the window. -/
theorem refIndex_toNat (admitted : Admitted sizes) (taken : turn.Taken (layoutOf sizes)) (rand : UInt64) :
    refLane (layoutOf sizes) turn rand < sizes.p ∧
    0 < area sizes turn.pass turn.slice turn.index (refLane (layoutOf sizes) turn rand = turn.lane) ∧
    (refIndex (layoutOf sizes) turn rand).toNat = (startColumn sizes turn.pass turn.slice +
      (area sizes turn.pass turn.slice turn.index (refLane (layoutOf sizes) turn rand = turn.lane) - 1 -
        area sizes turn.pass turn.slice turn.index (refLane (layoutOf sizes) turn rand = turn.lane) *
          (rand.toUInt32.toNat ^ 2 / 2 ^ 32) / 2 ^ 32)) % sizes.columns := by
  have passes := admitted.fewPasses
  have early : turn.pass < sizes.t := taken.pass
  have inside : refLane (layoutOf sizes) turn rand < sizes.p := by
    unfold refLane
    split
    · exact taken.lane
    · rw [show (layoutOf sizes).lanes = sizes.p from rfl, refLane_toNat admitted]
      exact Nat.mod_lt _ admitted.lanes
  have later (first : turn.pass = 0) (zero : turn.slice = 0) : 2 ≤ turn.index ∧
    refLane (layoutOf sizes) turn rand = turn.lane := by
    have behind := taken.behind
    rw [startIndex, if_pos ⟨first, zero⟩] at behind
    exact ⟨behind, if_pos ⟨first, zero⟩⟩
  have asked : Asked sizes turn.pass turn.slice turn.index turn.lane (refLane (layoutOf sizes) turn rand) :=
    ⟨by omega, taken.slice, taken.inSegment, taken.lane, inside, later⟩
  refine ⟨inside, area_pos admitted fun first zero => ?_, indexAlpha_toNat admitted asked rand.toUInt32⟩
  exact ⟨(later first zero).1, decide_eq_true (later first zero).2⟩

theorem computed_column (admitted : Admitted sizes) (taken : turn.Taken (layoutOf sizes)) {lane column : Nat}
    (inside : lane < sizes.p)
    (low : column < sizes.columns)
    (place : (turn.pass ≠ 0 ∧ (turn.slice + 1) * sizes.segment ≤ column) ∨ column < turn.slice * sizes.segment ∨
      (lane = turn.lane ∧ column + 1 < turn.slice * sizes.segment + turn.index)) :
    Computed (layoutOf sizes) turn (lane * sizes.columns + column) := by
  have early : turn.pass < sizes.t := taken.pass
  have few : turn.index < sizes.segment := taken.inSegment
  have two := admitted.segment_two
  rcases place with ⟨later, behind⟩ | front
  · refine .inl ⟨turnOf sizes (turn.pass - 1) lane column, ?_, ?_, ?_, turnOf_place _ _ _⟩
    · refine turnOf_taken admitted (by omega) inside low fun _ => ?_
      rw [Nat.succ_mul] at behind
      omega
    · exact .inl (show turn.pass - 1 < turn.pass by omega)
    · exact (show turn.pass ≤ turn.pass - 1 + 1 by omega)
  · by_cases first : turn.pass = 0 ∧ column < 2
    · exact .inr ⟨first.1, lane, inside, column, first.2, rfl⟩
    · refine .inl ⟨turnOf sizes turn.pass lane column, ?_, ?_, ?_, turnOf_place _ _ _⟩
      · exact turnOf_taken admitted early inside low fun zero => by omega
      · refine turnOf_before admitted few (front.imp_right ?_)
        rintro ⟨own, less⟩
        exact ⟨own, by omega⟩
      · exact (show turn.pass ≤ turn.pass + 1 by omega)

theorem apart_column (admitted : Admitted sizes) (taken : turn.Taken (layoutOf sizes)) {lane column : Nat}
    (low : column < sizes.columns)
    (place : (turn.pass ≠ 0 ∧ (turn.slice + 1) * sizes.segment ≤ column) ∨ column < turn.slice * sizes.segment ∨
      (lane = turn.lane ∧ column + 1 < turn.slice * sizes.segment + turn.index)) :
    lane * sizes.columns + column ≠ turn.place (layoutOf sizes) := by
  have columns := admitted.columns_segment
  have few : turn.index < sizes.segment := taken.inSegment
  have slices : turn.slice < 4 := taken.slice
  have most : turn.slice * sizes.segment ≤ 3 * sizes.segment := Nat.mul_le_mul_right _ (by omega)
  intro same
  -- both columns are below the length of a lane, so they are the same
  have column_eq : column = turn.slice * sizes.segment + turn.index := by
    have reduced := congrArg (· % sizes.columns) same
    unfold Turn.place currPlace layoutOf at reduced
    dsimp only at reduced
    rwa [Nat.add_assoc, Nat.mul_add_mod_of_lt low, Nat.mul_add_mod_of_lt (by omega)] at reduced
  rw [Nat.succ_mul] at place
  omega

theorem startPos_eq : startPos (layoutOf sizes) turn = startColumn sizes turn.pass turn.slice := by
  unfold startPos startColumn layoutOf
  split_ifs
  · rfl
  · rfl
  · push_cast
    rfl

/-- The step into a window is no difference that could be negative. -/
theorem relativePos_eq {size : Nat} (positive : 0 < size) (rand : UInt32) :
    relativePos size rand.toNat = ((size - 1 - size * (rand.toNat ^ 2 / 2 ^ 32) / 2 ^ 32 : Nat) : Int) := by
  have less := scaled_lt positive rand
  have whole : (size : Int) * ((rand.toNat : Int) ^ 2 / 2 ^ 32) / 2 ^ 32 =
    ((size * (rand.toNat ^ 2 / 2 ^ 32) / 2 ^ 32 : Nat) : Int) := by
    push_cast
    rfl
  unfold relativePos
  rw [whole]
  omega

theorem sound_reference (admitted : Admitted sizes) (taken : turn.Taken (layoutOf sizes)) (rand : UInt64) :
    SoundReference (layoutOf sizes) turn rand := by
  have columns := admitted.columns_segment
  have small := admitted.columns_small
  have two := admitted.segment_two
  have slices : turn.slice < 4 := taken.slice
  obtain ⟨inside, positive, index⟩ := refIndex_toNat admitted taken rand
  have size : refAreaSize (layoutOf sizes) turn (refLane (layoutOf sizes) turn rand = turn.lane) =
      area sizes turn.pass turn.slice turn.index (refLane (layoutOf sizes) turn rand = turn.lane) :=
    refAreaSize_eq admitted taken fun first zero => decide_eq_true (if_pos ⟨first, zero⟩)
  have bounded := @area_small sizes admitted turn.pass turn.slice turn.index slices taken.inSegment
    (refLane (layoutOf sizes) turn rand = turn.lane)
  have low : startColumn sizes turn.pass turn.slice ≤ sizes.columns := by
    have most : (turn.slice + 1) * sizes.segment ≤ 4 * sizes.segment := Nat.mul_le_mul_right _ (by omega)
    unfold startColumn
    split_ifs <;> omega
  have below : (refIndex (layoutOf sizes) turn rand).toNat < sizes.columns := by
    rw [index]
    exact Nat.mod_lt _ (by omega)
  have within : area sizes turn.pass turn.slice turn.index (refLane (layoutOf sizes) turn rand = turn.lane) - 1 -
      area sizes turn.pass turn.slice turn.index (refLane (layoutOf sizes) turn rand = turn.lane) *
        (rand.toUInt32.toNat ^ 2 / 2 ^ 32) / 2 ^ 32 <
      area sizes turn.pass turn.slice turn.index (refLane (layoutOf sizes) turn rand = turn.lane) := by omega
  have position := column_cases admitted slices taken.inSegment within
  rw [← index, decide_eq_true_eq] at position
  refine ⟨inside, ?_, ?_, ?_, ?_, below, rfl, computed_column admitted taken inside below position,
    apart_column admitted taken below position⟩
  · rw [size]
    exact_mod_cast positive
  · rw [size, relativePos_eq positive]
    exact Int.natCast_nonneg _
  · rw [size, startPos_eq]
    omega
  · rw [size, startPos_eq, relativePos_eq positive, index]
    push_cast
    rfl

end

end Hiya.Pm.Argon2
