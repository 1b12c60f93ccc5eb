import Hiya.Pm.Argon2
import Hiya.Pm.Rfc9106

/-! The compression of blocks, against RFC 9106. The program permutes rows and columns in
place, one after another; since they do not meet, each sees what was there at the start. -/

namespace Hiya.Pm.Argon2
open Library

/-- A block of the program as the RFC sees it. -/
def view (block : Block) : Rfc9106.Block := Rfc9106.ofWords block.get

theorem word_view (block : Block) (n : Fin 128) : Rfc9106.word (view block) n = block.get n := by
  have place : 16 * (n.val / 16) + 2 * (n.val % 16 / 2) + n.val % 2 = n.val := by omega
  exact congrArg block.get place

theorem view_build (words : Nat → UInt64) : view (.build blockWords words) = Rfc9106.ofWords words := by
  funext i j k
  exact Vec.get_build words (by unfold blockWords; omega)

theorem view_zeroBlock : view zeroBlock = Rfc9106.zero := view_build _

theorem rotr64_32 (x : UInt64) : rotr64 x 32 = Rfc9106.rotateRight x 32 := rfl
theorem rotr64_24 (x : UInt64) : rotr64 x 24 = Rfc9106.rotateRight x 24 := rfl
theorem rotr64_16 (x : UInt64) : rotr64 x 16 = Rfc9106.rotateRight x 16 := rfl
theorem rotr64_63 (x : UInt64) : rotr64 x 63 = Rfc9106.rotateRight x 63 := rfl

theorem toUInt32_toUInt64 (x : UInt64) : x.toUInt32.toUInt64 = Rfc9106.trunc x := by
  apply UInt64.toNat_inj.mp
  rw [UInt32.toNat_toUInt64, UInt64.toNat_toUInt32, Rfc9106.trunc, UInt64.toNat_mod]
  rfl

theorem blamka_eq (x y : UInt64) : blamka x y = x + y + 2 * Rfc9106.trunc x * Rfc9106.trunc y := by
  rw [blamka, toUInt32_toUInt64, toUInt32_toUInt64]

def words16 (x : Vec UInt64 16) : Fin 16 → UInt64 := fun n => x.get n

theorem words16_argon2G (i j k l : Fin 16) (x : Vec UInt64 16) : words16 (argon2G i j k l x) =
    Rfc9106.gb i j k l (words16 x) := by
  funext n
  have turn (m : Fin 16) : (m.val = n.val) = (n = m) :=
    propext ⟨fun same => Fin.ext same.symm, fun same => (congrArg Fin.val same).symm⟩
  simp only [words16, argon2G, Rfc9106.gb]
  rw [Vec.get_set _ _ l.isLt, Vec.get_set _ _ k.isLt, Vec.get_set _ _ j.isLt, Vec.get_set _ _ i.isLt]
  simp only [turn, blamka_eq, rotr64_32, rotr64_24, rotr64_16, rotr64_63]

theorem words16_permute (x : Vec UInt64 16) : words16 (argon2Permute16 x) = Rfc9106.rounds (words16 x) := by
  unfold argon2Permute16 Rfc9106.rounds
  rw [← words16_argon2G, ← words16_argon2G, ← words16_argon2G, ← words16_argon2G, ← words16_argon2G, ← words16_argon2G,
    ← words16_argon2G, ← words16_argon2G]
  rfl

theorem get_permute {x : Nat → UInt64} {n : Nat} (small : n < 16) :
    (argon2Permute16 (.build 16 x)).get n = Rfc9106.rounds (fun n => x n) ⟨n, small⟩ := by
  have front : words16 (.build 16 x) = fun n : Fin 16 => x n := funext fun n => Vec.get_build x n.isLt
  rw [← front, ← words16_permute]
  rfl

structure Tiles (place : Nat → Nat → Nat) : Prop where
  inside : ∀ i < 8, ∀ n < 16, place i n < blockWords
  apart : ∀ i < 8, ∀ n < 16, ∀ i' < 8, ∀ n' < 16, place i n = place i' n' → i = i' ∧ n = n'

theorem tiles_row : Tiles rowPlace := by
  constructor
  · intro i _ n _
    unfold rowPlace blockWords
    omega
  · intro i _ n _ i' _ n' _ same
    unfold rowPlace at same
    omega

theorem tiles_column : Tiles columnPlace := by
  constructor
  · intro i _ n _
    unfold columnPlace blockWords
    omega
  · intro i _ n _ i' _ n' _ same
    unfold columnPlace at same
    omega

section
variable {place : Nat → Nat → Nat} (tiles : Tiles place) (z : Block)
include tiles

theorem get_permuteAt {i n : Nat} (row : i < 8) (small : n < 16) :
    (permuteAt (place i) z).get (place i n) = Rfc9106.rounds (fun n => z.get (place i n)) ⟨n, small⟩ := by
  unfold permuteAt
  rw [Vec.get_scatter z _ (tiles.inside i row)
    (fun first one second two same => (tiles.apart i row first one i row second two same).2) small]
  exact get_permute small

theorem get_permuteAt_other {i i' n' : Nat} (row : i < 8) (other : i' < 8) (small : n' < 16) (different : i ≠ i') :
    (permuteAt (place i) z).get (place i' n') = z.get (place i' n') := by
  unfold permuteAt
  exact Vec.get_scatter_of_ne z _ (tiles.inside i row) fun n less same => different
    (tiles.apart i row n less i' other n' small same).1

/-- What the rows in front have become, and that the others are still there. -/
theorem get_permuteFront {count : Nat} (few : count ≤ 8) {i n : Nat} (row : i < 8) (small : n < 16) :
    ((List.range count).foldl (fun z i => permuteAt (place i) z) z).get (place i n) =
      if i < count then Rfc9106.rounds (fun n => z.get (place i n)) ⟨n, small⟩ else z.get (place i n) := by
  induction count generalizing i n with
  | zero => rfl
  | succ count ih =>
    rw [List.range_succ, List.foldl_append, List.foldl_cons, List.foldl_nil]
    have before {n : Nat} (small : n < 16) := ih (by omega) row small
    by_cases here : i = count
    · subst here
      rw [get_permuteAt tiles _ row small, if_pos (Nat.lt_succ_self i)]
      congr 1
      funext n
      rw [before n.isLt, if_neg (Nat.lt_irrefl i)]
    · rw [get_permuteAt_other tiles _ (by omega) row small (Ne.symm here), before small]
      by_cases less : i < count
      · rw [if_pos less, if_pos (by omega)]
      · rw [if_neg less, if_neg (by omega)]

theorem get_permuteAll {i n : Nat} (row : i < 8) (small : n < 16) :
    (permuteAll place z).get (place i n) = Rfc9106.rounds (fun n => z.get (place i n)) ⟨n, small⟩ := by
  have whole := get_permuteFront tiles z (Nat.le_refl 8) row small
  rwa [if_pos row] at whole

end

theorem view_rows (z : Block) : view (permuteAll rowPlace z) = fun i => Rfc9106.permutation (view z i) := by
  funext i j k
  have small : 2 * j.val + k.val < 16 := by omega
  have place : 16 * i.val + 2 * j.val + k.val = rowPlace i (2 * j + k) := by
    unfold rowPlace
    omega
  change (permuteAll rowPlace z).get (16 * i + 2 * j + k) = _
  rw [place, get_permuteAll tiles_row z i.isLt small, Rfc9106.permutation]
  congr 1
  funext n
  refine congrArg z.get ?_
  dsimp only [rowPlace]
  omega

theorem view_columns (z : Block) : view (permuteAll columnPlace z) =
    fun i j => Rfc9106.permutation (fun row => view z row j) i := by
  funext i j k
  have small : 2 * i.val + k.val < 16 := by omega
  have place : 16 * i.val + 2 * j.val + k.val = columnPlace j (2 * i + k) := by
    unfold columnPlace
    omega
  change (permuteAll columnPlace z).get (16 * i + 2 * j + k) = _
  rw [place, get_permuteAll tiles_column z j.isLt small, Rfc9106.permutation]
  congr 1
  funext n
  refine congrArg z.get ?_
  dsimp only [columnPlace]
  omega

theorem view_compress (out a b : Block) : view (argon2Compress out a b false) = Rfc9106.compress (view a) (view b) := by
  unfold argon2Compress Rfc9106.compress
  simp only [Bool.false_eq_true, if_false]
  have whole : view (.build blockWords fun i => a.get i ^^^ b.get i) = Rfc9106.xor (view a) (view b) := view_build _
  rw [← whole, view_build]
  generalize (Vec.build blockWords fun i => a.get i ^^^ b.get i : Block) = r
  have permuted : view (permuteAll columnPlace (permuteAll rowPlace r)) =
      fun i j => Rfc9106.permutation (fun row => Rfc9106.permutation (view r row) j) i := by
    rw [view_columns, view_rows]
  rw [← permuted]
  funext i j k
  exact UInt64.xor_comm _ _

theorem view_compress_xor (out a b : Block) :
    view (argon2Compress out a b true) = Rfc9106.xor (Rfc9106.compress (view a) (view b)) (view out) := by
  rw [← view_compress out]
  unfold argon2Compress
  simp only [if_true, Bool.false_eq_true, if_false, view_build]
  funext i j k
  exact UInt64.xor_comm _ _

end Hiya.Pm.Argon2
