import Hiya.Cbor.Walkers
import Hiya.Proofs.CborReads

/-! The decoder down to its fetches is the decoder: the looks at the size make every
pointer it hands out good for the bytes that are fetched through it. -/

namespace Hiya.Cbor
open Library
open Proc (bind_apply get_apply)

namespace Raw
variable {α β γ : Type}

/-- The decoder's function with its errors as return codes. Nothing of it is a fault. -/
def lifted (view : β → α) (body : Decode β) : Walk α := fun dec =>
  match body dec with
  | (.ok value, last) => (.ok (view value), last)
  | (.error problem, last) => (.error (.code problem), last)

theorem lifted_ok {view : β → α} {body : Decode β} {dec last : Decoder} {value : β} (done : body dec = (.ok value, last)) :
    lifted view body dec = (.ok (view value), last) := by
  unfold lifted
  rw [done]

theorem lifted_error {view : β → α} {body : Decode β} {dec last : Decoder} {problem : Error}
    (failed : body dec = (.error problem, last)) : lifted view body dec = (.error (.code problem), last) := by
  unfold lifted
  rw [failed]

theorem lifted_bind {δ : Type} {view : β → α} {inner : δ → γ} {first : Decode β} {next : β → Decode δ} {after : α → Walk γ}
    (follows : ∀ value, after (view value) = lifted inner (next value)) :
    lifted view first >>= after = lifted inner (first >>= next) := by
  funext dec
  cases done : first dec with
  | mk outcome last =>
    cases outcome with
    | error problem => rw [Proc.bind_of_error (lifted_error done), lifted_error (Proc.bind_of_error done)]
    | ok value =>
      rw [Proc.bind_of_ok (lifted_ok done), follows]
      unfold lifted
      rw [Proc.bind_of_ok done]

theorem fetchBe_eq {data : Bytes} {place width : Nat} (inside : place + width ≤ data.length) (value : Nat) :
    fetchBe data place width value =
      .ok (((data.drop place).take width).foldl (fun acc byte => acc * 256 + byte.toNat) value) := by
  induction width generalizing place value with
  | zero =>
    rw [List.take_zero]
    rfl
  | succ width ih =>
    have there : place < data.length := by omega
    have byte : fetch data place = .ok data[place] := by
      unfold fetch
      rw [List.getElem?_eq_getElem there]
    unfold fetchBe
    rw [byte, List.drop_eq_getElem_cons there, List.take_succ_cons, List.foldl_cons]
    exact ih (by omega) _

theorem decReadBe_eq (width : Nat) : decReadBe width = lifted (fun bytes => UInt64.ofNat (beNat bytes))
    (Cbor.decRead width) := by
  funext dec
  by_cases bad : dec.error = true
  · have failed : Cbor.decRead width dec = (.error .invalid, dec) := by
      simp only [Cbor.decRead, bind_apply, get_apply, if_pos bad, Proc.fail_apply]
    rw [lifted_error failed]
    simp only [decReadBe, decRead, bind_apply, get_apply, if_pos bad, Proc.fail_apply]
  by_cases short : dec.offset + width > dec.data.length
  · have failed : Cbor.decRead width dec = (.error .invalid, dec.setError) := by
      simp only [Cbor.decRead, bind_apply, get_apply, if_neg bad, if_pos short]
      rfl
    rw [lifted_error failed]
    simp only [decReadBe, decRead, bind_apply, get_apply, if_neg bad, if_pos short]
    rfl
  · have done : Cbor.decRead width dec = (.ok (dec.rest.take width), dec.advance width) := by
      simp only [Cbor.decRead, bind_apply, get_apply, if_neg bad, if_neg short, Proc.modify_apply, Proc.pure_apply]
    have fetched : fetchBe (dec.advance width).data dec.offset width 0 = .ok (beNat (dec.rest.take width)) :=
      fetchBe_eq (Nat.le_of_not_gt short) 0
    rw [lifted_ok done]
    simp only [decReadBe, decRead, bind_apply, get_apply, if_neg bad, if_neg short, Proc.modify_apply, Proc.pure_apply,
      fetched]
    rfl

/-- A wider argument, read after the head byte. -/
theorem wide_eq (width : Nat) (major : Major) (additional : UInt8) :
    (do pure { major, additional, argument := ← decReadBe width } : Walk Head) =
      lifted id (do pure { major, additional, argument := ← Cbor.decReadBe width } : Decode Head) := by
  rw [decReadBe_eq]
  unfold Cbor.decReadBe
  rw [bind_assoc]
  exact lifted_bind fun bytes => rfl

theorem decHead_eq : decHead = lifted id Cbor.decHead := by
  have byte (bytes : Bytes) : UInt8.ofNat (UInt64.ofNat (beNat bytes)).toNat = UInt8.ofNat (beNat bytes) := by
    apply UInt8.toNat_inj.mp
    rw [UInt64.toNat_ofNat', UInt8.toNat_ofNat', UInt8.toNat_ofNat']
    omega
  have first : decHead = decReadBe 1 >>= fun value => _ := rfl
  rw [Cbor.decHead_eq, first, decReadBe_eq 1]
  refine lifted_bind fun bytes => ?_
  rw [byte]
  unfold decArgument
  dsimp only
  generalize UInt8.ofNat (beNat bytes) &&& 0x1F = additional
  split
  · rfl
  by_cases one : additional = 24
  · subst one
    rw [if_pos rfl, ← decReadBe_eq 1]
    exact wide_eq 1 _ _
  rw [if_neg one]
  by_cases two : additional = 25
  · subst two
    exact wide_eq 2 _ _
  rw [if_neg two]
  by_cases four : additional = 26
  · subst four
    exact wide_eq 4 _ _
  rw [if_neg four]
  by_cases eight : additional = 27
  · subst eight
    exact wide_eq 8 _ _
  rw [if_neg eight]
  split <;> first | rfl | contradiction

def shape : Item → Shape
  | .array count => .array count
  | .map count => .map count
  | .tag _ => .tag
  | _ => .scalar

theorem decString_eq {item : Bytes → Item} (flat : ∀ data, shape (item data) = .scalar) (length : Nat) :
    decString length = lifted shape (do pure (item (← Cbor.decString length))) := by
  funext dec
  by_cases long : length > dec.remaining
  · have failed : (do pure (item (← Cbor.decString length)) : Decode Item) dec = (.error .invalid, dec.setError) := by
      simp only [Cbor.decString, bind_apply, get_apply, if_pos long]
      rfl
    rw [lifted_error failed]
    simp only [decString, bind_apply, get_apply, if_pos long]
    rfl
  · have done : (do pure (item (← Cbor.decString length)) : Decode Item) dec =
        (.ok (item (dec.rest.take length)), dec.advance length) := by
      simp only [Cbor.decString, bind_apply, get_apply, if_neg long, Proc.modify_apply, Proc.pure_apply]
    rw [lifted_ok done, flat]
    simp only [decString, bind_apply, get_apply, if_neg long, Proc.modify_apply, Proc.pure_apply]

theorem decContainer_eq (item : Nat → Item) (count items : Nat) :
    decContainer items (shape (item count)) = lifted shape (do pure (item (← Cbor.decContainer count items))) := by
  funext dec
  by_cases many : items > dec.remaining
  · have failed : (do pure (item (← Cbor.decContainer count items)) : Decode Item) dec = (.error .invalid, dec.setError) := by
      simp only [Cbor.decContainer, bind_apply, get_apply, if_pos many]
      rfl
    rw [lifted_error failed]
    simp only [decContainer, bind_apply, get_apply, if_pos many]
    rfl
  · have done : (do pure (item (← Cbor.decContainer count items)) : Decode Item) dec = (.ok (item count), dec) := by
      simp only [Cbor.decContainer, bind_apply, get_apply, if_neg many, Proc.pure_apply]
    rw [lifted_ok done]
    simp only [decContainer, bind_apply, get_apply, if_neg many, Proc.pure_apply]

theorem decodeNext_eq : decodeNext = lifted shape Cbor.decodeNext := by
  rw [Cbor.decodeNext_eq]
  unfold decodeNext
  rw [decHead_eq]
  refine lifted_bind fun head => ?_
  unfold decodeItem
  dsimp only [id]
  cases head.major with
  | uint => rfl
  | negint => rfl
  | bstr => exact decString_eq (fun _ => rfl) _
  | tstr => exact decString_eq (fun _ => rfl) _
  | array => exact decContainer_eq .array _ _
  | map => exact decContainer_eq .map _ _
  | tag => rfl
  | simple =>
    dsimp only
    split
    · rfl
    split
    · rfl
    split
    · rfl
    · rfl

theorem repeatWith_eq {raw : Walk Unit} {body : Decode Unit} (same : raw = lifted id body) (count : Nat) :
    Proc.repeatWith count (fun _ => raw) () = lifted id (Proc.repeatWith count (fun _ => body) ()) := by
  induction count with
  | zero => rfl
  | succ count ih =>
    unfold Proc.repeatWith
    rw [same]
    refine lifted_bind fun _ => ?_
    rw [← same]
    exact ih

theorem skipItemDepth_eq (room : Nat) : skipItemDepth room = lifted id (Cbor.skipItemDepth room) := by
  induction room with
  | zero => rfl
  | succ room ih =>
    have pair : (do skipItemDepth room; skipItemDepth room) =
      lifted id (do Cbor.skipItemDepth room; Cbor.skipItemDepth room) := by
      rw [ih]
      exact lifted_bind fun _ => rfl
    unfold skipItemDepth Cbor.skipItemDepth
    rw [decodeNext_eq]
    refine lifted_bind fun item => ?_
    cases item with
    | array count => exact repeatWith_eq ih count
    | map count => exact repeatWith_eq pair count
    | tag number => exact ih
    | _ => rfl

/-- The walk of the decoder is the decoder's `skip`. -/
theorem skip_eq : skip = lifted id Cbor.skip := skipItemDepth_eq _

end Raw

end Hiya.Cbor
