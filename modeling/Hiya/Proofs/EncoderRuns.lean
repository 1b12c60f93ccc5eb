import Hiya.Proofs.CborWrites

/-! What holds in every run of encoder calls. The offset stays in the buffer, the open
containers are few and none of them is complete, and a failure is final, unless it is one of the
arguments: such a call leaves no trace. -/

namespace Hiya.Cbor
open Library
open Proc (bind_of_ok get_apply)

/-- The books an encoder keeps. -/
structure Encoder.Booked (enc : Encoder) : Prop where
  room : enc.buf.length ≤ enc.capacity
  shallow : enc.depth ≤ maxDepth
  due : ∀ frame ∈ enc.stack, frame.written < frame.count

theorem Encoder.Booked.setError {enc : Encoder} (booked : enc.Booked) : enc.setError.Booked where
  room := booked.room
  shallow := booked.shallow
  due := booked.due

theorem Encoder.Booked.setStack {enc : Encoder} (booked : enc.Booked) {stack : List Frame} (shallow : stack.length ≤ maxDepth)
    (due : ∀ frame ∈ stack, frame.written < frame.count) : (enc.setStack stack).Booked where
  room := booked.room
  shallow := shallow
  due := due

/-- Closing containers takes them off the stack; a container that counts one more item and
stays open is not complete. -/
theorem trackItem_books {stack : List Frame} (due : ∀ frame ∈ stack, frame.written < frame.count) :
    (trackItem stack).length ≤ stack.length ∧ ∀ frame ∈ trackItem stack, frame.written < frame.count := by
  induction stack with
  | nil => exact ⟨Nat.le_refl _, due⟩
  | cons frame below ih =>
    obtain ⟨_, below_due⟩ := List.forall_mem_cons.mp due
    obtain ⟨shorter, rest⟩ := ih below_due
    unfold trackItem
    split
    next => exact ⟨Nat.le_succ_of_le shorter, rest⟩
    next open_ =>
      refine ⟨Nat.le_refl _, List.forall_mem_cons.mpr ⟨?_, below_due⟩⟩
      change frame.written + 1 < frame.count
      omega

structure Guarded (body : Encode Unit) : Prop where
  keeps : ∀ enc, enc.Booked → (body enc).2.Booked
  raises : ∀ enc problem last, body enc = (.error problem, last) → last.error = true

def Barred (body : Encode Unit) : Prop :=
  ∀ enc, enc.error = true → ∃ problem last, body enc = (.error problem, last) ∧ last.buf = enc.buf ∧ last.error = true

namespace Guarded
variable {first second : Encode Unit}

protected theorem bind (start : Guarded first) (continues : Guarded second) : Guarded (first >>= fun _ => second) where
  keeps enc booked := by
    have half := start.keeps enc booked
    rcases done : first enc with ⟨problem | _, reached⟩
    · rw [done] at half
      rwa [Proc.bind_of_error done]
    · rw [done] at half
      rw [bind_of_ok done]
      exact continues.keeps reached half
  raises enc problem last failed := by
    rcases done : first enc with ⟨other | _, reached⟩
    · rw [Proc.bind_of_error done] at failed
      obtain ⟨_, rfl⟩ := Prod.mk.inj failed
      exact start.raises enc other reached done
    · rw [bind_of_ok done] at failed
      exact continues.raises reached problem last failed

protected theorem restack {change : List Frame → List Frame}
    (books : ∀ stack : List Frame, stack.length ≤ maxDepth → (∀ frame ∈ stack, frame.written < frame.count) →
      (change stack).length ≤ maxDepth ∧ ∀ frame ∈ change stack, frame.written < frame.count) :
    Guarded (Proc.modify fun enc => enc.setStack (change enc.stack)) where
  keeps enc booked := by
    obtain ⟨shallow, due⟩ := books enc.stack booked.shallow booked.due
    exact booked.setStack shallow due
  raises _ _ _ failed := by cases failed

end Guarded

theorem Barred.bind {first : Encode Unit} (barred : Barred first) (second : Encode Unit) :
    Barred (first >>= fun _ => second) := by
  intro enc up
  obtain ⟨problem, last, failed, same, stays⟩ := barred enc up
  exact ⟨problem, last, Proc.bind_of_error failed, same, stays⟩

theorem guarded_encWrite (bytes : Bytes) : Guarded (encWrite bytes) where
  keeps enc booked := by
    unfold encWrite
    rw [bind_of_ok (get_apply enc)]
    split
    · exact booked
    · split
      · exact booked.setError
      next fits =>
        refine ⟨?_, booked.shallow, booked.due⟩
        change (enc.buf ++ bytes).length ≤ enc.capacity
        rw [List.length_append]
        omega
  raises enc problem last failed := by
    unfold encWrite at failed
    rw [bind_of_ok (get_apply enc)] at failed
    split at failed
    next up =>
      cases failed
      exact up
    · split at failed
      · cases failed
        rfl
      · cases failed

theorem barred_encWrite (bytes : Bytes) : Barred (encWrite bytes) := by
  intro enc up
  refine ⟨.overflow, enc, ?_, rfl, up⟩
  unfold encWrite
  rw [bind_of_ok (get_apply enc), if_pos up]
  rfl

theorem guarded_encHead (major : Major) (value : Nat) : Guarded (encHead major value) := by
  unfold encHead
  dsimp only
  split
  · exact guarded_encWrite _
  split
  · exact (guarded_encWrite _).bind (guarded_encWrite _)
  split
  · exact (guarded_encWrite _).bind (guarded_encWrite _)
  split
  · exact (guarded_encWrite _).bind (guarded_encWrite _)
  · exact (guarded_encWrite _).bind (guarded_encWrite _)

theorem barred_encHead (major : Major) (value : Nat) : Barred (encHead major value) := by
  unfold encHead
  dsimp only
  split
  · exact barred_encWrite _
  split
  · exact (barred_encWrite _).bind _
  split
  · exact (barred_encWrite _).bind _
  split
  · exact (barred_encWrite _).bind _
  · exact (barred_encWrite _).bind _

theorem guarded_encTrackItem : Guarded encTrackItem := by
  refine .restack fun stack shallow due => ?_
  obtain ⟨shorter, still⟩ := trackItem_books due
  exact ⟨Nat.le_trans shorter shallow, still⟩

structure Safe (body : Encode Unit) : Prop where
  guarded : Guarded body
  barred : Barred body

theorem Safe.bind {first second : Encode Unit} (start : Safe first) (continues : Guarded second) :
    Safe (first >>= fun _ => second) where
  guarded := start.guarded.bind continues
  barred := start.barred.bind second

theorem safe_encWrite (bytes : Bytes) : Safe (encWrite bytes) where
  guarded := guarded_encWrite bytes
  barred := barred_encWrite bytes

theorem safe_encHead (major : Major) (value : Nat) : Safe (encHead major value) where
  guarded := guarded_encHead major value
  barred := barred_encHead major value

theorem safe_item (major : Major) (value : Nat) : Safe (encHead major value >>= fun _ => encTrackItem) :=
  (safe_encHead major value).bind guarded_encTrackItem

theorem safe_string (major : Major) (data : Bytes) : Safe (encodeString major data) := by
  unfold encodeString
  refine (safe_encHead major data.length).bind ?_
  split
  · exact (guarded_encWrite data).bind guarded_encTrackItem
  · exact guarded_encTrackItem

def Flat (body : Encode Unit) : Prop := ∀ enc, (body enc).2.stack = enc.stack

theorem Flat.bind {first second : Encode Unit} (start : Flat first) (continues : Flat second) :
    Flat (first >>= fun _ => second) := by
  intro enc
  have half := start enc
  rcases done : first enc with ⟨problem | _, reached⟩
  · rw [done] at half
    rwa [Proc.bind_of_error done]
  · rw [done] at half
    rw [bind_of_ok done, continues reached, half]

theorem flat_encWrite (bytes : Bytes) : Flat (encWrite bytes) := by
  intro enc
  unfold encWrite
  rw [bind_of_ok (get_apply enc)]
  split
  · rfl
  · split <;> rfl

theorem flat_encHead (major : Major) (value : Nat) : Flat (encHead major value) := by
  unfold encHead
  dsimp only
  split
  · exact flat_encWrite _
  split
  · exact (flat_encWrite _).bind (flat_encWrite _)
  split
  · exact (flat_encWrite _).bind (flat_encWrite _)
  split
  · exact (flat_encWrite _).bind (flat_encWrite _)
  · exact (flat_encWrite _).bind (flat_encWrite _)

/-- Behind the head of a container there is a level for it, as the head opens none. -/
theorem opened_books {enc reached : Encoder} {items : Nat} (booked : reached.Booked) (same : reached.stack = enc.stack)
    (level : enc.depth < maxDepth) (some : 0 < items) :
    (reached.setStack ({ count := items, written := 0 } :: reached.stack)).Booked := by
  refine booked.setStack ?_ (List.forall_mem_cons.mpr ⟨some, booked.due⟩)
  rw [same]
  exact level

theorem safe_container (major : Major) {count items : Nat} (some : count ≠ 0 → 0 < items) :
    Safe (encodeContainer major count items) where
  guarded := by
    have opened := guarded_encHead major count
    constructor
    · intro enc booked
      unfold encodeContainer
      rw [bind_of_ok (get_apply enc)]
      split
      · exact booked.setError
      next level =>
        have head := opened.keeps enc booked
        have same := flat_encHead major count enc
        rcases done : encHead major count enc with ⟨problem | _, reached⟩
        · rw [done] at head
          rwa [Proc.bind_of_error done]
        · rw [done] at head same
          rw [bind_of_ok done]
          split
          · exact guarded_encTrackItem.keeps reached head
          next filled => exact opened_books head same (Nat.lt_of_not_le fun deep => level (.inl deep)) (some filled)
    · intro enc problem last failed
      unfold encodeContainer at failed
      rw [bind_of_ok (get_apply enc)] at failed
      split at failed
      · cases failed
        rfl
      · rcases done : encHead major count enc with ⟨other | _, reached⟩
        · rw [Proc.bind_of_error done] at failed
          obtain ⟨_, rfl⟩ := Prod.mk.inj failed
          exact opened.raises enc other reached done
        · rw [bind_of_ok done] at failed
          split at failed
          · exact guarded_encTrackItem.raises reached problem last failed
          · cases failed
  barred := by
    intro enc up
    unfold encodeContainer
    rw [bind_of_ok (get_apply enc)]
    split
    · exact ⟨.nesting, enc.setError, rfl, rfl, rfl⟩
    · exact ((barred_encHead major count).bind _) enc up

theorem safe_encodeInt (value : Int) : Safe (encodeInt value) := by
  unfold encodeInt
  split
  · exact safe_item .uint _
  · exact safe_item .negint _

theorem encodeSlice_refused (major : Major) {len : UInt64} (some : 0 < len) (enc : Encoder) :
    encodeSlice major (.null len) enc = (.error .invalid, enc) := by
  simp only [encodeSlice, if_pos some]
  rfl

theorem safe_slice (major : Major) {data : Slice} (fine : ∀ len, data = .null len → ¬ 0 < len) :
    Safe (encodeSlice major data) := by
  cases data with
  | null len =>
    simp only [encodeSlice, if_neg (fine len rfl)]
    exact safe_string major []
  | bytes data => exact safe_string major data

theorem encodeSimple_refused {value : UInt8} (reserved : reservedSimple value = true) (enc : Encoder) :
    encodeSimple value enc = (.error .invalid, enc) := by
  unfold encodeSimple
  rw [if_pos reserved]
  rfl

theorem safe_simple {value : UInt8} (fine : reservedSimple value = false) : Safe (encodeSimple value) := by
  unfold encodeSimple
  rw [if_neg (by rw [fine]; exact Bool.false_ne_true)]
  split
  · exact safe_item .simple _
  · exact (safe_encWrite _).bind ((guarded_encWrite _).bind guarded_encTrackItem)

/-- A call whose arguments are refused ends there. -/
theorem encode_refused {call : Call} (refused : call.refused = true) (enc : Encoder) :
    call.encode enc = (.error .invalid, enc) := by
  cases call with
  | bstr data | tstr data =>
    cases data with
    | null len => exact encodeSlice_refused _ (of_decide_eq_true refused) enc
    | bytes data => cases refused
  | tstrZ str =>
    cases str with
    | none => rfl
    | some str => cases refused
  | simple value => exact encodeSimple_refused refused enc
  | _ => cases refused

theorem safe_encode {call : Call} (fine : call.refused = false) : Safe call.encode := by
  cases call with
  | uint value => exact safe_item .uint _
  | negint value => exact safe_item .negint _
  | int value => exact safe_encodeInt _
  | bstr data | tstr data =>
    refine safe_slice _ fun len same => ?_
    subst same
    exact of_decide_eq_false fine
  | tstrZ str =>
    cases str with
    | none => cases fine
    | some str => exact safe_string .tstr _
  | array count => exact safe_container .array Nat.pos_of_ne_zero
  | map count => exact safe_container .map fun some => Nat.mul_pos (Nat.pos_of_ne_zero some) Nat.two_pos
  | tag value => exact safe_encHead .tag _
  | bool value | null | undefined => exact safe_item .simple _
  | simple value => exact safe_simple fine
  | float bits => exact (safe_encWrite _).bind ((guarded_encWrite _).bind guarded_encTrackItem)
  | double bits => exact (safe_encWrite _).bind ((guarded_encWrite _).bind guarded_encTrackItem)

/-- A call has failed, and not for its arguments. -/
def Broken (past : List (Event Encoder Call (Except Error Unit))) : Prop :=
  ∃ earlier ∈ past, earlier.input.refused = false ∧ earlier.outcome ≠ .ok ()

theorem broken_snoc {past : List (Event Encoder Call (Except Error Unit))} {event : Event Encoder Call (Except Error Unit)} :
    Broken (past ++ [event]) ↔ Broken past ∨ (event.input.refused = false ∧ event.outcome ≠ .ok ()) := by
  simp [Broken, or_and_right, exists_or]

/-- The books are kept, and the flag is up once a call has failed. -/
structure Encoder.Kept (past : List (Event Encoder Call (Except Error Unit))) (enc : Encoder) : Prop where
  booked : enc.Booked
  flagged : Broken past → enc.error = true

theorem kept_init (capacity : Nat) : (Encoder.init capacity).Kept [] where
  booked := ⟨Nat.zero_le _, Nat.zero_le _, fun _ none => absurd none List.not_mem_nil⟩
  flagged broken := by
    obtain ⟨_, none, _⟩ := broken
    cases none

variable {past : List (Event Encoder Call (Except Error Unit))} {enc : Encoder}

theorem Encoder.Kept.step (kept : enc.Kept past) (call : Call) :
    (call.encode enc).2.Kept (past ++ [encoderCalls.event enc call]) := by
  cases refused : call.refused with
  | true =>
    have unchanged := encode_refused refused enc
    refine ⟨unchanged ▸ kept.booked, fun broken => ?_⟩
    obtain before | ⟨fine, _⟩ := broken_snoc.mp broken
    · exact unchanged ▸ kept.flagged before
    · cases refused.symm.trans fine
  | false =>
    have safe := safe_encode refused
    refine ⟨safe.guarded.keeps enc kept.booked, fun broken => ?_⟩
    obtain before | ⟨_, failed⟩ := broken_snoc.mp broken
    · obtain ⟨problem, last, done, _, up⟩ := safe.barred enc (kept.flagged before)
      rwa [done]
    · rcases done : call.encode enc with ⟨problem | ⟨⟩, last⟩
      · exact safe.guarded.raises enc problem last done
      · exact absurd (congrArg Prod.fst done) failed

/-- What a call does behind a failure: it fails, and nothing is written. -/
theorem Encoder.Kept.ends (kept : enc.Kept past) (broken : Broken past) (call : Call) :
    (call.encode enc).1 ≠ .ok () ∧ (call.encode enc).2.buf = enc.buf := by
  cases refused : call.refused with
  | true =>
    rw [encode_refused refused enc]
    exact ⟨nofun, rfl⟩
  | false =>
    obtain ⟨problem, last, done, same, _⟩ := (safe_encode refused).barred enc (kept.flagged broken)
    rw [done]
    exact ⟨nofun, same⟩

/-- In every run of calls the books are kept. A call whose arguments are refused fails and leaves
no trace, and any other failure is the end: later calls fail and write nothing. -/
theorem encoder_failures_are_final (capacity : Nat) (calls : List Call) :
    Throughout (encoderCalls.run (.init capacity) calls) fun past event =>
      event.before.Booked ∧ event.after.Booked ∧
      (event.input.refused = true → event.outcome = .error .invalid ∧ event.after = event.before) ∧
      (Broken past → event.outcome ≠ .ok () ∧ event.after.buf = event.before.buf) := by
  refine Machine.run_every (fun past enc => enc.Kept past) (fun past enc call kept => kept.step call)
    (fun past enc call kept => ?_)
    (kept_init capacity) calls
  refine ⟨kept.booked, (kept.step call).booked, fun refused => ?_, fun broken => kept.ends broken call⟩
  have unchanged := encode_refused refused enc
  exact ⟨congrArg Prod.fst unchanged, congrArg Prod.snd unchanged⟩

/-- A reserved simple value fails, and the next call is as good as ever. -/
theorem refused_value_does_not_end_the_run : ¬ ∀ (capacity : Nat) (calls : List Call),
    Throughout (encoderCalls.run (.init capacity) calls) fun past event =>
      event.before.Booked ∧ event.after.Booked ∧
      ((∃ earlier ∈ past, earlier.outcome ≠ .ok ()) → event.outcome ≠ .ok () ∧ event.after.buf = event.before.buf) := by
  intro all
  have first : encoderCalls.event (.init 1) (.simple 24) = ⟨.init 1, .simple 24, .error .invalid, .init 1⟩ := rfl
  obtain ⟨_, _, final⟩ := all 1 [.simple 24, .null] [encoderCalls.event (.init 1) (.simple 24)]
    (encoderCalls.event (.init 1) .null) [] rfl
  obtain ⟨fails, _⟩ := final ⟨_, List.mem_singleton_self _, by rw [first]; nofun⟩
  exact fails rfl

end Hiya.Cbor
