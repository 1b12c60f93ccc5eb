import Hiya.Proofs.CborReads

/-! What the encoder writes. Every call has a byte string and an effect on the stack of
open containers, and succeeds exactly when the bytes and the containers fit. -/

namespace Hiya.Cbor
open Library

/-- Open a container of `items` items, unless the encoder's stack is full or the items
are too many. -/
def openContainer (count items : Nat) (stack : List Frame) : Option (List Frame) :=
  if stack.length ≥ maxDepth ∨ items > countMax then none
  else if count = 0 then some (trackItem stack)
  else some ({ count := items, written := 0 } :: stack)

/-- An encoder that has not failed yet. -/
structure Ready (enc : Encoder) : Prop where
  clear : enc.error = false
  room : enc.buf.length ≤ enc.capacity

def moved (enc : Encoder) (bytes : Bytes) (stack : List Frame) : Encoder :=
  (enc.append bytes).setStack stack

@[simp] theorem moved_stack (enc : Encoder) (bytes : Bytes) (stack : List Frame) :
    (moved enc bytes stack).stack = stack := rfl

@[simp] theorem moved_capacity (enc : Encoder) (bytes : Bytes) (stack : List Frame) :
    (moved enc bytes stack).capacity = enc.capacity := rfl

@[simp] theorem moved_buf (enc : Encoder) (bytes : Bytes) (stack : List Frame) :
    (moved enc bytes stack).buf = enc.buf ++ bytes := rfl

theorem moved_moved (enc : Encoder) (first second : Bytes) (middle stack : List Frame) :
    moved (moved enc first middle) second stack = moved enc (first ++ second) stack := by
  simp [moved, Encoder.append, Encoder.setStack]

theorem moved_nil (enc : Encoder) : moved enc [] enc.stack = enc := by
  simp [moved, Encoder.append, Encoder.setStack]

theorem Ready.moved {enc : Encoder} (ready : Ready enc) {bytes : Bytes} (stack : List Frame)
    (room : enc.buf.length + bytes.length ≤ enc.capacity) : Ready (moved enc bytes stack) where
  clear := ready.clear
  room := by simpa using room

/-- The effect of a writer on an encoder that has not failed. It either appends
exactly `bytes` and moves the open containers as `nest` says, or it fails. -/
structure Writes {ε : Type} (body : Proc Encoder ε Unit) (bytes : Bytes)
    (nest : List Frame → Option (List Frame)) : Prop where
  fits : ∀ enc stack, Ready enc → enc.buf.length + bytes.length ≤ enc.capacity →
    nest enc.stack = some stack → body enc = (.ok (), moved enc bytes stack)
  full : ∀ enc, Ready enc → enc.capacity < enc.buf.length + bytes.length ∨ nest enc.stack = none →
    ∃ problem last, body enc = (.error problem, last)

namespace Writes
variable {ε ε' : Type} {first second : Proc Encoder ε Unit} {head tail : Bytes}
  {before after : List Frame → Option (List Frame)}

protected theorem pure : Writes (pure () : Proc Encoder ε Unit) [] some where
  fits enc stack _ _ same := by
    cases same
    rw [moved_nil]
    rfl
  full enc ready reason := by
    have room := ready.room
    rcases reason with long | stuck
    · simp only [List.length_nil] at long
      omega
    · cases stuck

protected theorem bind (start : Writes first head before) (continues : Writes second tail after) :
    Writes (first >>= fun _ => second) (head ++ tail) fun stack => (before stack).bind after where
  fits enc stack ready room same := by
    rw [List.length_append] at room
    obtain ⟨middle, nested, rest⟩ := Option.bind_eq_some_iff.mp same
    have half : enc.buf.length + head.length ≤ enc.capacity := by omega
    have whole : (moved enc head middle).buf.length + tail.length ≤ (moved enc head middle).capacity := by
      simp only [moved_buf, moved_capacity, List.length_append]
      omega
    rw [Proc.bind_of_ok (start.fits enc middle ready half nested),
      continues.fits _ stack (ready.moved middle half) whole rest, moved_moved]
  full enc ready reason := by
    rw [List.length_append] at reason
    by_cases room : enc.buf.length + head.length ≤ enc.capacity
    · cases nested : before enc.stack with
      | none =>
        obtain ⟨problem, last, failed⟩ := start.full enc ready (.inr nested)
        exact ⟨problem, last, Proc.bind_of_error failed⟩
      | some middle =>
        rw [Proc.bind_of_ok (start.fits enc middle ready room nested)]
        refine continues.full _ (ready.moved middle room) ?_
        rcases reason with long | stuck
        · left
          simp only [moved_buf, moved_capacity, List.length_append]
          omega
        · right
          rwa [nested] at stuck
    · obtain ⟨problem, last, failed⟩ := start.full enc ready (.inl (by omega))
      exact ⟨problem, last, Proc.bind_of_error failed⟩

protected theorem orFail {problem : ε'} (start : Writes first head before) :
    Writes (first.orFail problem) head before where
  fits enc stack ready room same := Proc.orFail_eq_ok.mpr (start.fits enc stack ready room same)
  full enc ready reason := by
    obtain ⟨inner, last, failed⟩ := start.full enc ready reason
    exact ⟨problem, last, by simp only [Proc.orFail, failed]⟩

end Writes

theorem writes_encWrite (data : Bytes) : Writes (encWrite data) data some where
  fits enc stack ready room same := by
    cases same
    have within : ¬enc.buf.length + data.length > enc.capacity := by omega
    simp only [encWrite, Proc.bind_apply, Proc.get_apply, ready.clear, Bool.false_eq_true, if_false, if_neg within,
      Proc.modify_apply]
    rfl
  full enc ready reason := by
    rcases reason with long | stuck
    · refine ⟨.overflow, enc.setError, ?_⟩
      simp only [encWrite, Proc.bind_apply, Proc.get_apply, ready.clear, Bool.false_eq_true, if_false, gt_iff_lt,
        if_pos long]
      rfl
    · cases stuck

theorem writes_encHead (major : Major) (value : Nat) : Writes (encHead major value) (headBytes major value) some := by
  unfold encHead headBytes additionalOf argumentBytes
  split
  · exact writes_encWrite _
  split
  · exact (writes_encWrite _).bind (writes_encWrite _)
  split
  · exact (writes_encWrite _).bind (writes_encWrite _)
  split
  · exact (writes_encWrite _).bind (writes_encWrite _)
  · exact (writes_encWrite _).bind (writes_encWrite _)

theorem writes_restack (change : List Frame → List Frame) :
    Writes (Proc.modify fun enc => enc.setStack (change enc.stack) : Encode Unit) []
      fun stack => some (change stack) where
  fits enc stack _ _ same := by
    cases same
    simp [moved, Encoder.append]
  full enc ready reason := by
    have room := ready.room
    rcases reason with long | stuck
    · simp only [List.length_nil] at long
      omega
    · cases stuck

theorem writes_encTrackItem : Writes encTrackItem [] fun stack => some (trackItem stack) :=
  writes_restack trackItem

/-- A head followed by the accounting of a finished item. -/
theorem writes_item (major : Major) (value : Nat) :
    Writes (encHead major value >>= fun _ => encTrackItem) (headBytes major value)
      fun stack => some (trackItem stack) := by
  simpa using (writes_encHead major value).bind writes_encTrackItem

theorem writes_string (major : Major) (data : Bytes) :
    Writes (encodeString major data) (headBytes major data.length ++ data) fun stack => some (trackItem stack) := by
  unfold encodeString
  split
  · simpa using (writes_encHead major data.length).bind ((writes_encWrite data).bind writes_encTrackItem)
  next none =>
    have empty : data = [] := List.length_eq_zero_iff.mp (by omega)
    subst empty
    simpa using writes_item major 0

def pushed (count items : Nat) (stack : List Frame) : List Frame :=
  if count = 0 then trackItem stack else { count := items, written := 0 } :: stack

theorem writes_opened (major : Major) (count items : Nat) :
    Writes (encHead major count >>= fun _ =>
        if count = 0 then encTrackItem
        else Proc.modify fun enc => enc.setStack ({ count := items, written := 0 } :: enc.stack))
      (headBytes major count) fun stack => some (pushed count items stack) := by
  unfold pushed
  split
  · exact writes_item major count
  · simpa using (writes_encHead major count).bind (writes_restack fun stack => { count := items, written := 0 } :: stack)

theorem writes_container (major : Major) (count items : Nat) :
    Writes (encodeContainer major count items) (headBytes major count) (openContainer count items) where
  fits enc stack ready room same := by
    unfold openContainer at same
    split at same
    · cases same
    next shallow =>
      have opened : some (pushed count items enc.stack) = some stack := by
        rw [← same, pushed]
        split
        · rfl
        · rfl
      have level : ¬(enc.depth ≥ maxDepth ∨ items > countMax) := shallow
      unfold encodeContainer
      rw [Proc.bind_of_ok (Proc.get_apply enc), if_neg level]
      exact (writes_opened major count items).fits enc stack ready room opened
  full enc ready reason := by
    unfold encodeContainer
    rw [Proc.bind_of_ok (Proc.get_apply enc)]
    by_cases deep : enc.depth ≥ maxDepth ∨ items > countMax
    · rw [if_pos deep]
      exact ⟨.nesting, enc.setError, rfl⟩
    · rw [if_neg deep]
      apply (writes_opened major count items).full enc ready
      rcases reason with long | stuck
      · exact .inl long
      · have shallow : ¬(enc.stack.length ≥ maxDepth ∨ items > countMax) := deep
        unfold openContainer at stuck
        rw [if_neg shallow] at stuck
        split at stuck
        · cases stuck
        · cases stuck

end Hiya.Cbor
