import Hiya.Library.Proc
import Mathlib.Data.Stream.Init

/-! Programs that draw from a source whose calls can fail: a fixed number of draws, draws as
long as the source has answers, and a bounded number of attempts. The state is the source as
it is left, so a run can be cut where a draw ends. -/

namespace Hiya.Library

/-- What the calls of a source answer, one after the other. -/
abbrev Draws (α : Type) : Type := Stream' (Option α)

namespace Proc
variable {α β γ ε σ : Type}

def draw (problem : ε) : Proc (Draws α) ε α := fun source =>
  match source.head with
  | some answer => (.ok answer, source.tail)
  | none => (.error problem, source.tail)

/-- Draw so many times and turn each answer into an item. -/
def draws (problem : ε) (turn : α → β) : Nat → Proc (Draws α) ε (List β)
  | 0 => pure []
  | count + 1 => do
    let answer ← draw problem
    let rest ← draws problem turn count
    pure (turn answer :: rest)

/-- Use an answer with each item in turn, and stop where the source fails. -/
def drawTill (write : γ → α × β → γ) : List β → γ → Proc (Draws α) ε γ
  | [], held => pure held
  | item :: rest, held => fun source =>
    match source.head with
    | some answer => drawTill write rest (write held (answer, item)) source.tail
    | none => (.ok held, source.tail)

/-- Try until a value is accepted, and finish that one. The value of the last try remains
when none is. -/
def retry (accept : α → Bool) (attempt : Proc σ ε α) (finish : α → Proc σ ε α) : Nat → α → Proc σ ε α
  | 0, held => pure held
  | count + 1, _ => do
    let value ← attempt
    if accept value then finish value else retry accept attempt finish count value

variable {problem : ε} {turn : α → β} {write : γ → α × β → γ} {source last : Draws α}

theorem draw_eq_ok {answer : α} :
    draw problem source = (.ok answer, last) ↔ source = Stream'.cons (some answer) last := by
  rw [← Stream'.eta source]
  cases first : source.head with
  | none => simp [draw, Stream'.cons_injective2.eq_iff]
  | some found => simp [draw, Stream'.cons_injective2.eq_iff, Stream'.tail_cons]

theorem draws_eq_ok {count : Nat} {items : List β} :
    draws problem turn count source = (.ok items, last) ↔
      ∃ answers : List α, answers.length = count ∧ items = answers.map turn ∧ source = answers.map some ++ₛ last := by
  induction count generalizing source items with
  | zero =>
    constructor
    · intro done
      cases done
      exact ⟨[], rfl, rfl, rfl⟩
    · intro drawn
      obtain ⟨answers, none, rfl, rfl⟩ := drawn
      obtain rfl := List.eq_nil_of_length_eq_zero none
      rfl
  | succ count ih =>
    constructor
    · intro done
      obtain ⟨answer, middle, first, later⟩ := bind_eq_ok.mp done
      obtain ⟨rest, reached, others, ends⟩ := bind_eq_ok.mp later
      cases ends
      obtain ⟨answers, long, rfl, rfl⟩ := ih.mp others
      exact ⟨answer :: answers, congrArg (· + 1) long, rfl, draw_eq_ok.mp first⟩
    · intro drawn
      obtain ⟨answers, long, rfl, rfl⟩ := drawn
      obtain ⟨answer, answers, rfl⟩ := List.exists_cons_of_length_eq_add_one long
      apply bind_eq_ok.mpr
      refine ⟨answer, answers.map some ++ₛ last, draw_eq_ok.mpr rfl, ?_⟩
      exact bind_eq_ok.mpr ⟨answers.map turn, last, ih.mpr ⟨answers, Nat.succ.inj long, rfl, rfl⟩, rfl⟩

theorem drawTill_eq_ok {items : List β} {held result : γ}
    (done : (drawTill write items held : Proc (Draws α) ε γ) source = (.ok result, last)) :
    ∃ answers : List α, result = (answers.zip items).foldl write held := by
  induction items generalizing held source with
  | nil =>
    cases done
    exact ⟨[], rfl⟩
  | cons item rest ih =>
    unfold drawTill at done
    cases first : source.head with
    | none =>
      rw [first] at done
      cases done
      exact ⟨[], rfl⟩
    | some answer =>
      rw [first] at done
      obtain ⟨answers, rfl⟩ := ih done
      exact ⟨answer :: answers, rfl⟩

theorem drawTill_answers (answers : List α) (items : List β) (held : γ) :
    ∃ last, (drawTill write items held : Proc (Draws α) ε γ) (answers.map some ++ₛ Stream'.const none) =
      (.ok ((answers.zip items).foldl write held), last) := by
  induction items generalizing answers held with
  | nil => exact ⟨_, by rw [List.zip_nil_right]; rfl⟩
  | cons item rest ih =>
    cases answers with
    | nil => exact ⟨_, rfl⟩
    | cons answer answers => exact ih answers (write held (answer, item))

section
variable {accept : α → Bool} {attempt : Proc σ ε α} {finish : α → Proc σ ε α} {start reached : σ} {held result : α}

/-- A value that is accepted in the end was finished after an attempt that was accepted. -/
theorem retry_eq_ok {count : Nat} (done : retry accept attempt finish count held start = (.ok result, reached))
    (accepted : accept result = true)
    (fresh : accept held = false) :
    ∃ value before middle, attempt before = (.ok value, middle) ∧ accept value = true ∧
    finish value middle = (.ok result, reached) := by
  induction count generalizing held start with
  | zero =>
    cases done
    rw [fresh] at accepted
    cases accepted
  | succ count ih =>
    obtain ⟨value, middle, tried, later⟩ := bind_eq_ok.mp done
    cases good : accept value with
    | true =>
      rw [if_pos good] at later
      exact ⟨value, start, middle, tried, good, later⟩
    | false =>
      rw [if_neg (Bool.eq_false_iff.mp good)] at later
      exact ih later good

theorem retry_first {count : Nat} {value : α} {middle : σ} (tried : attempt start = (.ok value, middle))
    (good : accept value = true) :
    retry accept attempt finish (count + 1) held start = finish value middle := by
  unfold retry
  rw [bind_of_ok tried, if_pos good]

end

end Proc

end Hiya.Library
