import Hiya.Library.Proc

/-! Moving an exact number of bytes over a descriptor, in the pieces that the kernel
chooses. Every call takes the next of the kernel's answers. -/

namespace Hiya.Library

inductive Answer
  | moved (count : Nat)
  | interrupted
  | blocked (ready : Bool)
  | failed
  deriving DecidableEq, Repr

/-- How many bytes the loop around a call goes on with; none for the next try, and
nothing at all where it gives up. Some loops wait for a descriptor that is not ready,
and some take a call that has moved no byte for a piece. -/
def Answer.taken (waits idles : Bool) : Answer → Option Nat
  | moved count => if count = 0 ∧ !idles then none else some count
  | interrupted => some 0
  | blocked ready => if waits && ready then some 0 else none
  | failed => none

/-- A descriptor with all that its peer will send before the end of the stream, and
all that was written to it. Once the answers are used up every call fails. -/
structure Descriptor (α : Type) where
  answers : List Answer
  incoming : List α
  outgoing : List α

section
variable {α : Type}

/-- The loop around `read`. What it had got when it fails is gone. -/
def receive (waits : Bool) : List Answer → Nat → List α → Option (List α) × List Answer × List α
  | answers, 0, incoming => (some [], answers, incoming)
  | [], _ + 1, incoming => (none, [], incoming)
  | answer :: rest, want + 1, incoming =>
    match answer.taken waits false with
    | none => (none, rest, incoming)
    | some 0 => receive waits rest (want + 1) incoming
    | some (count + 1) =>
      -- a read at the end of the stream
      if incoming = [] then (none, rest, incoming)
      else
        let piece := incoming.take (min (count + 1) (want + 1))
        let (got, left) := receive waits rest (want + 1 - piece.length) (incoming.drop piece.length)
        (got.map (piece ++ ·), left)

/-- The loop around `write`, with the bytes that it has handed over. -/
def deliver (waits idles : Bool) : List Answer → List α → Bool × List Answer × List α
  | answers, [] => (true, answers, [])
  | [], _ :: _ => (false, [], [])
  | answer :: rest, item :: more =>
    match answer.taken waits idles with
    | none => (false, rest, [])
    | some count =>
      let (done, left, written) := deliver waits idles rest ((item :: more).drop count)
      (done, left, (item :: more).take count ++ written)

def readExact (waits : Bool) (want : Nat) : Proc (Descriptor α) Unit (List α) := fun socket =>
  match receive waits socket.answers want socket.incoming with
  | (some got, answers, incoming) => (.ok got, { socket with answers, incoming })
  | (none, answers, incoming) => (.error (), { socket with answers, incoming })

def writeExact (waits idles : Bool) (bytes : List α) : Proc (Descriptor α) Unit Unit := fun socket =>
  match deliver waits idles socket.answers bytes with
  | (true, answers, written) => (.ok (), { socket with answers, outgoing := socket.outgoing ++ written })
  | (false, answers, written) => (.error (), { socket with answers, outgoing := socket.outgoing ++ written })

/-- The answers move so many bytes, one by one at the worst, before any of them fails. -/
def Carries (waits idles : Bool) : Nat → List Answer → Prop
  | 0, _ => True
  | _ + 1, [] => False
  | need + 1, answer :: rest =>
    match answer.taken waits idles with
    | none => False
    | some 0 => Carries waits idles (need + 1) rest
    | some (_ + 1) => Carries waits idles need rest

end

section
variable {α : Type} {waits idles : Bool}

/-- What is taken from the stream is its front, and a loop that ends well has all it wanted. -/
theorem receive_spec (waits : Bool) (answers : List Answer) (want : Nat) (incoming : List α) :
    ∃ used, incoming = used ++ (receive waits answers want incoming).2.2 ∧
      ∀ got, (receive waits answers want incoming).1 = some got → got = used ∧ used.length = want := by
  induction answers generalizing want incoming with
  | nil =>
    cases want with
    | zero => exact ⟨[], rfl, fun got is => ⟨(Option.some.inj is).symm, rfl⟩⟩
    | succ want => exact ⟨[], rfl, fun got never => nomatch never⟩
  | cons answer rest ih =>
    cases want with
    | zero => exact ⟨[], rfl, fun got is => ⟨(Option.some.inj is).symm, rfl⟩⟩
    | succ want =>
      unfold receive
      split
      · exact ⟨[], rfl, fun got never => nomatch never⟩
      · exact ih (want + 1) incoming
      next count _ =>
        split
        · exact ⟨[], rfl, fun got never => nomatch never⟩
        · have short : (incoming.take (min (count + 1) (want + 1))).length ≤ want + 1 := by
            rw [List.length_take]
            omega
          have front : incoming.take (incoming.take (min (count + 1) (want + 1))).length =
            incoming.take (min (count + 1) (want + 1)) := by
            rw [List.length_take, List.take_eq_take_min]
            simp
          generalize incoming.take (min (count + 1) (want + 1)) = piece at short front
          obtain ⟨used, whole, known⟩ := ih (want + 1 - piece.length) (incoming.drop piece.length)
          refine ⟨piece ++ used, ?_, ?_⟩
          · calc
              incoming = incoming.take piece.length ++ incoming.drop piece.length := (List.take_append_drop _ _).symm
              _ = _ := by rw [front, whole, ← List.append_assoc]
          · intro got is
            obtain ⟨more, made, rfl⟩ := Option.map_eq_some_iff.mp is
            obtain ⟨rfl, size⟩ := known more made
            exact ⟨rfl, by rw [List.length_append, size]; omega⟩

/-- What is handed over is the front of what was to be written, all of it where the loop ends well. -/
theorem deliver_spec (waits idles : Bool) (answers : List Answer) (bytes : List α) :
    ∃ rest, bytes = (deliver waits idles answers bytes).2.2 ++ rest ∧
    ((deliver waits idles answers bytes).1 = true → rest = []) := by
  induction answers generalizing bytes with
  | nil =>
    cases bytes with
    | nil => exact ⟨[], rfl, fun _ => rfl⟩
    | cons item more => exact ⟨item :: more, rfl, fun never => nomatch never⟩
  | cons answer rest ih =>
    cases bytes with
    | nil => exact ⟨[], rfl, fun _ => rfl⟩
    | cons item more =>
      unfold deliver
      split
      · exact ⟨item :: more, rfl, fun never => nomatch never⟩
      next count _ =>
        obtain ⟨last, whole, done⟩ := ih ((item :: more).drop count)
        refine ⟨last, ?_, done⟩
        dsimp only
        rw [List.append_assoc, ← whole, List.take_append_drop]

theorem Carries.less {need : Nat} {answers : List Answer} (carries : Carries waits idles (need + 1) answers) :
    Carries waits idles need answers := by
  induction answers generalizing need with
  | nil => exact carries.elim
  | cons answer rest ih =>
    cases need with
    | zero => exact trivial
    | succ need =>
      unfold Carries at carries ⊢
      split at carries
      · exact carries
      · exact ih carries
      · exact ih carries

theorem Carries.mono {most need : Nat} {answers : List Answer} (carries : Carries waits idles most answers)
    (less : need ≤ most) :
    Carries waits idles need answers := by
  induction less with
  | refl => exact carries
  | step _ ih => exact ih carries.less

theorem carries_replicate (waits idles : Bool) (need count : Nat) :
    Carries waits idles need (List.replicate need (.moved (count + 1))) := by
  induction need with
  | zero => exact trivial
  | succ need ih => simpa [List.replicate_succ, Carries, Answer.taken] using ih

/-- Answers that carry enough let a read of what is there end well, and carry the rest. -/
theorem receive_carried {answers : List Answer} {need want : Nat} {incoming : List α}
    (carries : Carries waits false need answers)
    (enough : want ≤ need) (there : want ≤ incoming.length) :
    ∃ left, receive waits answers want incoming = (some (incoming.take want), left, incoming.drop want) ∧
      Carries waits false (need - want) left := by
  induction answers generalizing need want incoming with
  | nil =>
    cases want with
    | zero => exact ⟨[], by simp [receive], carries⟩
    | succ want =>
      obtain ⟨need, rfl⟩ := Nat.exists_eq_add_of_le enough
      exact (Nat.add_right_comm want 1 need ▸ carries : Carries waits false (want + need + 1) []).elim
  | cons answer rest ih =>
    cases want with
    | zero => exact ⟨answer :: rest, by simp [receive], carries⟩
    | succ want =>
      cases need with
      | zero => exact absurd enough (by omega)
      | succ need =>
        unfold Carries at carries
        unfold receive
        split at carries
        · exact carries.elim
        · exact ih carries enough there
        next count moved =>
          have some? : incoming ≠ [] := by
            rintro rfl
            exact absurd there (by simp)
          obtain ⟨more, split⟩ : ∃ more, want + 1 = min (count + 1) (want + 1) + more :=
            ⟨want + 1 - min (count + 1) (want + 1), by omega⟩
          have pos : 0 < min (count + 1) (want + 1) := by omega
          rw [if_neg some?]
          generalize min (count + 1) (want + 1) = piece at split pos
          have size : (incoming.take piece).length = piece := by
            rw [List.length_take]
            omega
          obtain ⟨left, made, carried⟩ := ih carries (show more ≤ need by omega)
            (show more ≤ (incoming.drop piece).length by rw [List.length_drop]; omega)
          refine ⟨left, ?_, carried.mono (by omega)⟩
          dsimp only
          rw [size, show want + 1 - piece = more by omega, made, split, List.take_add, List.drop_drop]
          rfl

/-- Answers that carry enough let a write end well, and carry the rest. -/
theorem deliver_carried {answers : List Answer} {need : Nat} {bytes : List α} (carries : Carries waits idles need answers)
    (enough : bytes.length ≤ need) : ∃ left, deliver waits idles answers bytes = (true, left, bytes) ∧
      Carries waits idles (need - bytes.length) left := by
  induction answers generalizing need bytes with
  | nil =>
    cases bytes with
    | nil => exact ⟨[], rfl, carries⟩
    | cons item more =>
      cases need with
      | zero => exact absurd enough (by simp)
      | succ need => exact carries.elim
  | cons answer rest ih =>
    cases bytes with
    | nil => exact ⟨answer :: rest, rfl, carries⟩
    | cons item more =>
      cases need with
      | zero => exact absurd enough (by simp)
      | succ need =>
        unfold Carries at carries
        unfold deliver
        split at carries
        · exact carries.elim
        next moved =>
          obtain ⟨left, made, carried⟩ := ih carries enough
          exact ⟨left, by rw [moved]; simp [made], carried⟩
        next count moved =>
          rw [List.length_cons] at enough
          obtain ⟨left, made, carried⟩ := ih carries (show (more.drop count).length ≤ need by rw [List.length_drop]; omega)
          refine ⟨left, ?_, carried.mono (by rw [List.length_drop, List.length_cons]; omega)⟩
          rw [moved]
          simp [made]

end

-- long schedules are not to be unfolded
attribute [irreducible] Carries

end Hiya.Library
