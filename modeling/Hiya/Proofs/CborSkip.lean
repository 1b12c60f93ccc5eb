import Hiya.Proofs.CborReads

/-! A skipped item is self-contained: the bytes that one run of `skip` passed over
are skipped again in any other input. This is what makes a raw copy of an unknown
value readable where it is written back. -/

namespace Hiya.Cbor
open Library

variable {ε ε' α β : Type}

/-- Every successful run consumed a segment of at least `least` bytes and reads the
same value from that segment anywhere. -/
def Local (least : Nat) (body : Proc Decoder ε α) : Prop :=
  ∀ dec value last, body dec = (.ok value, last) →
    ∃ bytes, least ≤ bytes.length ∧ dec.rest = bytes ++ last.rest ∧ last = dec.advance bytes.length ∧
      Reads body bytes value

namespace Local

protected theorem pure (value : α) : Local 0 (pure value : Proc Decoder ε α) := by
  intro dec result last done
  cases done
  exact ⟨[], Nat.le_refl _, rfl, rfl, .pure value⟩

protected theorem decFail {least : Nat} (problem : Error) : Local least (decFail problem : Decode α) := by
  intro dec result last done
  cases done

protected theorem bind {first second : Nat} {body : Proc Decoder ε α} {next : α → Proc Decoder ε β}
    (start : Local first body) (continues : ∀ value, Local second (next value)) :
    Local (first + second) (body >>= next) := by
  intro dec result last done
  obtain ⟨value, middle, one, other⟩ := Proc.bind_eq_ok.mp done
  obtain ⟨head, longHead, atHead, atMiddle, readsHead⟩ := start dec value middle one
  obtain ⟨tail, longTail, atTail, atLast, readsTail⟩ := continues value middle result last other
  refine ⟨head ++ tail, ?_, ?_, ?_, readsHead.bind readsTail⟩
  · rw [List.length_append]
    omega
  · rw [atHead, atTail, List.append_assoc]
  · rw [atLast, atMiddle, Decoder.advance_advance, List.length_append]

protected theorem andThen {least : Nat} {body : Proc Decoder ε α} {next : α → Proc Decoder ε β}
    (start : Local least body) (continues : ∀ value, Local 0 (next value)) : Local least (body >>= next) :=
  start.bind continues

protected theorem map {least : Nat} {body : Proc Decoder ε α} (start : Local least body) (change : α → β) :
    Local least (body >>= fun value => pure (change value)) :=
  start.andThen fun value => .pure (change value)

protected theorem weaken {least fewer : Nat} {body : Proc Decoder ε α} (start : Local least body)
    (less : fewer ≤ least) : Local fewer body := by
  intro dec value last done
  obtain ⟨bytes, long, here, moved, reads⟩ := start dec value last done
  exact ⟨bytes, by omega, here, moved, reads⟩

protected theorem repeatWith {least : Nat} {body : α → Proc Decoder ε α} (start : ∀ acc, Local least (body acc))
    (count : Nat) : ∀ acc, Local (count * least) (Proc.repeatWith count body acc) := by
  induction count with
  | zero => exact fun acc => (Local.pure acc).weaken (by omega)
  | succ count ih =>
    intro acc
    exact ((start acc).bind ih).weaken (by rw [Nat.succ_mul]; omega)

end Local

theorem local_decRead {count : Nat} (positive : 0 < count) : Local count (decRead count) := by
  intro dec value last done
  unfold decRead at done
  rw [Proc.bind_of_ok (Proc.get_apply dec)] at done
  split at done
  · cases done
  split at done
  · cases done
  next room =>
    have length : (dec.rest.take count).length = count := by
      simp only [Decoder.rest, List.length_take, List.length_drop]
      omega
    have nonempty : dec.rest.take count ≠ [] := List.length_pos_iff.mp (by omega)
    have reads := reads_decRead (dec.rest.take count) nonempty
    rw [length] at reads
    cases done
    refine ⟨dec.rest.take count, Nat.le_of_eq length.symm, ?_, ?_, reads⟩
    · simp [Decoder.rest, Decoder.advance, ← List.drop_drop]
    · rw [length]

theorem local_decReadBe {width : Nat} (positive : 0 < width) : Local width (decReadBe width) :=
  (local_decRead positive).map _

private theorem local_decArgument (head : UInt8) : Local 0 (decArgument head) := by
  unfold decArgument
  simp only
  split
  · exact .pure _
  split
  · exact ((local_decReadBe (by omega)).map _).weaken (Nat.zero_le 1)
  · exact ((local_decReadBe (by omega)).map _).weaken (Nat.zero_le 2)
  · exact ((local_decReadBe (by omega)).map _).weaken (Nat.zero_le 4)
  · exact ((local_decReadBe (by omega)).map _).weaken (Nat.zero_le 8)
  · exact .decFail _

theorem local_decHead : Local 1 decHead := by
  rw [decHead_eq]
  exact (local_decRead (by omega)).andThen fun bytes => local_decArgument _

theorem local_decString (length : Nat) : Local 0 (decString length) := by
  intro dec value last done
  unfold decString at done
  rw [Proc.bind_of_ok (Proc.get_apply dec)] at done
  split at done
  · cases done
  next room =>
    have taken : (dec.rest.take length).length = length := by
      rw [Decoder.remaining_eq] at room
      rw [List.length_take]
      omega
    have reads := reads_decString (dec.rest.take length)
    rw [taken] at reads
    cases done
    refine ⟨dec.rest.take length, Nat.zero_le _, ?_, ?_, reads⟩
    · simp [Decoder.rest, Decoder.advance, ← List.drop_drop]
    · rw [taken]

/-- The lookahead of a container head is met by the items themselves, so it does
not depend on what follows them. -/
theorem local_decContainer {count items : Nat} {next : Nat → Decode α} (start : Local items (next count)) :
    Local 0 (decContainer count items >>= next) := by
  intro dec value last done
  obtain ⟨size, middle, one, other⟩ := Proc.bind_eq_ok.mp done
  unfold decContainer at one
  rw [Proc.bind_of_ok (Proc.get_apply dec)] at one
  split at one
  · cases one
  · cases one
    obtain ⟨bytes, long, here, moved, reads⟩ := start dec value last other
    exact ⟨bytes, Nat.zero_le _, here, moved, (readsAhead_decContainer count items).bind long reads⟩

private theorem local_items {room : Nat} (item : Local 1 (skipItemDepth room)) (count : Nat) :
    Local count (Proc.repeatWith count (fun _ => skipItemDepth room) ()) :=
  (Local.repeatWith (fun _ => item) count ()).weaken (by omega)

private theorem local_pairs {room : Nat} (item : Local 1 (skipItemDepth room)) (count : Nat) :
    Local (count * 2) (Proc.repeatWith count (fun _ => do skipItemDepth room; skipItemDepth room) ()) :=
  Local.repeatWith (fun _ => item.bind fun _ => item) count ()

theorem local_skipItemDepth (room : Nat) : Local 1 (skipItemDepth room) := by
  induction room with
  | zero => exact .decFail _
  | succ room ih =>
    unfold skipItemDepth
    rw [decodeNext_eq, bind_assoc]
    refine local_decHead.andThen fun head => ?_
    unfold decodeItem
    cases head.major with
    | uint => exact .pure _
    | negint => exact .pure _
    | bstr =>
      simp only [bind_assoc]
      exact (local_decString _).andThen fun data => .pure _
    | tstr =>
      simp only [bind_assoc]
      exact (local_decString _).andThen fun data => .pure _
    | array =>
      simp only [bind_assoc]
      exact local_decContainer (local_items ih _)
    | map =>
      simp only [bind_assoc]
      exact local_decContainer (local_pairs ih _)
    | tag => exact ih.weaken (Nat.zero_le _)
    | simple =>
      simp only
      split
      · exact .pure _
      split
      · exact .pure _
      split
      · exact .pure _
      · exact .pure _

theorem local_skip : Local 1 skip := local_skipItemDepth _

end Hiya.Cbor
