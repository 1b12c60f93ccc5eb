import Hiya.Proofs.CborReads

/-! The items of CBOR as a grammar, with the levels on which they stand. The decoder's
`skip` passes over exactly the items that have no more levels than it allows. -/

namespace Hiya.Cbor
open Library

def argumentWidth (additional : UInt8) : Option Nat :=
  if additional ≤ 23 then some 0
  else if additional = 24 then some 1
  else if additional = 25 then some 2
  else if additional = 26 then some 4
  else if additional = 27 then some 8
  else none

structure IsHead (first : UInt8) (argument : Bytes) (head : Head) : Prop where
  major : head.major = Major.ofHead first
  additional : head.additional = first &&& 0x1F
  width : argumentWidth (first &&& 0x1F) = some argument.length
  value : head.argument.toNat = if first &&& 0x1F ≤ 23 then (first &&& 0x1F).toNat else beNat argument

def Series (part : Bytes → Prop) (count : Nat) (content : Bytes) : Prop :=
  ∃ pieces : List Bytes, pieces.length = count ∧ content = pieces.flatten ∧ ∀ piece ∈ pieces, part piece

def Content (part : Bytes → Prop) (head : Head) (content : Bytes) : Prop :=
  match head.major with
  | .bstr => content.length = head.argument.toNat
  | .tstr => content.length = head.argument.toNat
  | .array => Series part head.argument.toNat content
  | .map => Series part (head.argument.toNat * 2) content
  | .tag => part content
  | _ => content = []

/-- The bytes of one item on at most `levels` levels. An item inside a container or
after a tag is on the next one. -/
def Encodes : Nat → Bytes → Prop
  | 0, _ => False
  | levels + 1, bytes =>
    ∃ first argument content head, bytes = first :: (argument ++ content) ∧ IsHead first argument head ∧
      Content (Encodes levels) head content

theorem Encodes.ne_nil {levels : Nat} {bytes : Bytes} (encodes : Encodes levels bytes) : bytes ≠ [] := by
  cases levels with
  | zero => exact encodes.elim
  | succ levels =>
    obtain ⟨first, argument, content, head, rfl, -, -⟩ := encodes
    exact List.cons_ne_nil _ _

theorem Series.mono {part other : Bytes → Prop} {count : Nat} {content : Bytes} (series : Series part count content)
    (weaker : ∀ piece, part piece → other piece) : Series other count content := by
  obtain ⟨pieces, counted, joined, each⟩ := series
  exact ⟨pieces, counted, joined, fun piece inside => weaker piece (each piece inside)⟩

theorem Content.mono {part other : Bytes → Prop} {head : Head} {content : Bytes} (inside : Content part head content)
    (weaker : ∀ piece, part piece → other piece) : Content other head content := by
  unfold Content at inside ⊢
  cases major : head.major with
  | array =>
    rw [major] at inside
    exact Series.mono inside weaker
  | map =>
    rw [major] at inside
    exact Series.mono inside weaker
  | tag =>
    rw [major] at inside
    exact weaker content inside
  | _ =>
    rw [major] at inside
    exact inside

theorem Encodes.succ {levels : Nat} {bytes : Bytes} (encodes : Encodes levels bytes) : Encodes (levels + 1) bytes := by
  induction levels generalizing bytes with
  | zero => exact encodes.elim
  | succ levels ih =>
    obtain ⟨first, argument, content, head, rfl, isHead, inside⟩ := encodes
    exact ⟨first, argument, content, head, rfl, isHead, inside.mono fun piece part => ih part⟩

theorem Encodes.mono {levels more : Nat} {bytes : Bytes} (encodes : Encodes levels bytes) (fewer : levels ≤ more) :
    Encodes more bytes := by
  induction fewer with
  | refl => exact encodes
  | step _ ih => exact ih.succ

theorem Series.count_le {levels count : Nat} {content : Bytes} (series : Series (Encodes levels) count content) :
    count ≤ content.length := by
  obtain ⟨pieces, rfl, rfl, each⟩ := series
  induction pieces with
  | nil => exact Nat.le_refl 0
  | cons piece rest ih =>
    have first := List.length_pos_iff.mpr (each piece (List.mem_cons_self ..)).ne_nil
    have others := ih fun later inside => each later (List.mem_cons_of_mem piece inside)
    rw [List.flatten_cons, List.length_append, List.length_cons]
    omega

theorem series_nil (part : Bytes → Prop) : Series part 0 [] := ⟨[], rfl, rfl, fun _ inside => absurd inside List.not_mem_nil⟩

theorem Series.cons {part : Bytes → Prop} {count : Nat} {piece content : Bytes} (first : part piece)
    (series : Series part count content) : Series part (count + 1) (piece ++ content) := by
  obtain ⟨pieces, rfl, rfl, each⟩ := series
  refine ⟨piece :: pieces, rfl, rfl, fun other inside => ?_⟩
  obtain rfl | inside := List.mem_cons.mp inside
  · exact first
  · exact each other inside

theorem series_succ {part : Bytes → Prop} {count : Nat} {content : Bytes} (series : Series part (count + 1) content) :
    ∃ piece rest, content = piece ++ rest ∧ part piece ∧ Series part count rest := by
  obtain ⟨pieces, counted, rfl, each⟩ := series
  cases pieces with
  | nil => cases counted
  | cons piece pieces =>
    refine ⟨piece, pieces.flatten, rfl, each piece (List.mem_cons_self ..), pieces, Nat.succ.inj counted, rfl,
      fun other inside => ?_⟩
    exact each other (List.mem_cons_of_mem piece inside)

/-- An argument of at most eight bytes fits into a word. -/
theorem toNat_argument {bytes : Bytes} (short : bytes.length ≤ 8) : (UInt64.ofNat (beNat bytes)).toNat = beNat bytes := by
  refine toNat_ofNat (Nat.lt_of_lt_of_le (beNat_lt bytes) ?_)
  exact Nat.pow_le_pow_right (by omega) short

theorem argumentWidth_cases {additional : UInt8} {width : Nat} (known : argumentWidth additional = some width) :
    (additional ≤ 23 ∧ width = 0) ∨
      ¬ additional ≤ 23 ∧ ((additional = 24 ∧ width = 1) ∨ (additional = 25 ∧ width = 2) ∨ (additional = 26 ∧ width = 4) ∨
        (additional = 27 ∧ width = 8)) := by
  unfold argumentWidth at known
  split at known
  next small =>
    cases known
    exact .inl ⟨small, rfl⟩
  next large =>
    refine .inr ⟨large, ?_⟩
    split at known
    next one =>
      cases known
      exact .inl ⟨one, rfl⟩
    split at known
    next two =>
      cases known
      exact .inr (.inl ⟨two, rfl⟩)
    split at known
    next four =>
      cases known
      exact .inr (.inr (.inl ⟨four, rfl⟩))
    split at known
    next eight =>
      cases known
      exact .inr (.inr (.inr ⟨eight, rfl⟩))
    cases known

theorem argumentWidth_none {additional : UInt8} (reserved : argumentWidth additional = none) :
    ¬ additional ≤ 23 ∧ additional ≠ 24 ∧ additional ≠ 25 ∧ additional ≠ 26 ∧ additional ≠ 27 := by
  unfold argumentWidth at reserved
  split at reserved
  · cases reserved
  next large =>
    split at reserved
    · cases reserved
    next one =>
      split at reserved
      · cases reserved
      next two =>
        split at reserved
        · cases reserved
        next four =>
          split at reserved
          · cases reserved
          next eight => exact ⟨large, one, two, four, eight⟩

theorem decArgument_wide {first : UInt8} {width : Nat} (known : argumentWidth (first &&& 0x1F) = some width)
    (large : ¬ first &&& 0x1F ≤ 23) :
    decArgument first =
      (decReadBe width >>= fun word => pure
      { major := Major.ofHead first, additional := first &&& 0x1F, argument := word }) := by
  obtain ⟨small, -⟩ | ⟨-, same | same | same | same⟩ := argumentWidth_cases known
  · exact absurd small large
  all_goals
    obtain ⟨kind, rfl⟩ := same
    unfold decArgument
    dsimp only
    rw [if_neg large, kind]
    rfl

theorem reads_isHead {first : UInt8} {argument : Bytes} {head : Head} (isHead : IsHead first argument head) :
    Reads decHead (first :: argument) head := by
  obtain ⟨major, additional, word⟩ := head
  obtain ⟨rfl, rfl, known, value⟩ := isHead
  have byte : UInt8.ofNat (beNat [first]) = first := by simp [beNat]
  have start := reads_decRead [first] (List.cons_ne_nil _ _)
  rw [decHead_eq]
  refine Reads.bind start ?_
  rw [byte]
  dsimp only at value
  obtain ⟨small, none⟩ | ⟨large, widths⟩ := argumentWidth_cases known
  · have empty : argument = [] := List.length_eq_zero_iff.mp none
    subst empty
    rw [if_pos small] at value
    have same : (first &&& 0x1F).toUInt64 = word := UInt64.toNat_inj.mp (by rw [value, UInt8.toNat_toUInt64])
    unfold decArgument
    dsimp only
    rw [if_pos small, same]
    exact .pure _
  · rw [if_neg large] at value
    have short : argument.length ≤ 8 := by omega
    have same : UInt64.ofNat (beNat argument) = word := UInt64.toNat_inj.mp (by rw [value, toNat_argument short])
    rw [decArgument_wide known large, ← same]
    have read := (reads_decRead argument (List.length_pos_iff.mp (by omega))).map fun bytes => UInt64.ofNat (beNat bytes)
    exact read.map fun word => Head.mk (Major.ofHead first) (first &&& 0x1F) word

theorem reads_series {levels count : Nat} {content : Bytes} {body : Decode Unit}
    (each : ∀ piece, Encodes levels piece → Reads body piece ()) (series : Series (Encodes levels) count content) :
    Reads (Proc.repeatWith count (fun _ => body) ()) content () := by
  induction count generalizing content with
  | zero =>
    obtain ⟨pieces, none, rfl, -⟩ := series
    rw [List.length_eq_zero_iff.mp none]
    exact .pure ()
  | succ count ih =>
    obtain ⟨piece, rest, rfl, part, series⟩ := series_succ series
    exact (each piece part).bind (ih series)

theorem reads_pairs {levels count : Nat} {content : Bytes} {body : Decode Unit}
    (each : ∀ piece, Encodes levels piece → Reads body piece ()) (series : Series (Encodes levels) (count * 2) content) :
    Reads (Proc.repeatWith count (fun _ => do body; body) ()) content () := by
  induction count generalizing content with
  | zero =>
    obtain ⟨pieces, none, rfl, -⟩ := series
    rw [List.length_eq_zero_iff.mp none]
    exact .pure ()
  | succ count ih =>
    rw [Nat.succ_mul] at series
    obtain ⟨key, rest, rfl, first, series⟩ := series_succ series
    obtain ⟨value, rest, rfl, second, series⟩ := series_succ series
    rw [← List.append_assoc]
    exact ((each key first).bind (each value second)).bind (ih series)

theorem reads_skipItemDepth {levels : Nat} {bytes : Bytes} (encodes : Encodes levels bytes) :
    Reads (skipItemDepth levels) bytes () := by
  induction levels generalizing bytes with
  | zero => exact encodes.elim
  | succ levels ih =>
    obtain ⟨first, argument, content, head, rfl, isHead, inside⟩ := encodes
    unfold skipItemDepth
    rw [decodeNext_eq, bind_assoc, ← List.cons_append]
    refine (reads_isHead isHead).bind ?_
    unfold Content at inside
    unfold decodeItem
    cases major : head.major with
    | uint =>
      rw [major] at inside
      cases inside
      exact .pure ()
    | negint =>
      rw [major] at inside
      cases inside
      exact .pure ()
    | bstr =>
      rw [major] at inside
      dsimp only at inside ⊢
      rw [← inside, bind_assoc]
      exact (reads_decString content).andThen (.pure ())
    | tstr =>
      rw [major] at inside
      dsimp only at inside ⊢
      rw [← inside, bind_assoc]
      exact (reads_decString content).andThen (.pure ())
    | array =>
      rw [major] at inside
      dsimp only at inside ⊢
      simp only [bind_assoc, pure_bind]
      exact reads_counted inside.count_le (reads_series (fun _ => ih) inside)
    | map =>
      rw [major] at inside
      dsimp only at inside ⊢
      simp only [bind_assoc, pure_bind]
      exact reads_counted inside.count_le (reads_pairs (fun _ => ih) inside)
    | tag =>
      rw [major] at inside
      exact ih inside
    | simple =>
      rw [major] at inside
      cases inside
      dsimp only
      split
      · exact .pure ()
      split
      · exact .pure ()
      split
      · exact .pure ()
      · exact .pure ()

def Passes {α : Type} (body : Decode α) (good : α → Bytes → Prop) : Prop := ∀ dec value last, body dec = (.ok value, last) →
  ∃ bytes, dec.rest = bytes ++ last.rest ∧ last = dec.advance bytes.length ∧ good value bytes

namespace Passes
variable {α β : Type}

protected theorem pure (value : α) : Passes (pure value : Decode α) fun found bytes => found = value ∧ bytes = [] := by
  intro dec found last done
  cases done
  exact ⟨[], rfl, rfl, rfl, rfl⟩

protected theorem decFail (problem : Error) (good : α → Bytes → Prop) : Passes (decFail problem) good := by
  intro dec value last done
  cases done

protected theorem mono {body : Decode α} {good better : α → Bytes → Prop} (passes : Passes body good)
    (implies : ∀ value bytes, good value bytes → better value bytes) : Passes body better := by
  intro dec value last done
  obtain ⟨bytes, here, moved, fine⟩ := passes dec value last done
  exact ⟨bytes, here, moved, implies value bytes fine⟩

protected theorem bind {first : Decode α} {next : α → Decode β} {good : α → Bytes → Prop} {after : α → β → Bytes → Prop}
    (start : Passes first good) (continues : ∀ value, Passes (next value) (after value)) :
    Passes (first >>= next) fun result bytes => ∃ value head tail, bytes = head ++ tail ∧ good value head ∧
    after value result tail := by
  intro dec result last done
  obtain ⟨value, middle, one, other⟩ := Proc.bind_eq_ok.mp done
  obtain ⟨head, atHead, toMiddle, fine⟩ := start dec value middle one
  obtain ⟨tail, atTail, toLast, well⟩ := continues value middle result last other
  refine ⟨head ++ tail, ?_, ?_, value, head, tail, rfl, fine, well⟩
  · rw [atHead, atTail, List.append_assoc]
  · rw [toLast, toMiddle, Decoder.advance_advance, List.length_append]

/-- What is read is settled by the value, and what follows adds nothing. -/
protected theorem map {body : Decode α} {good : α → Bytes → Prop} (passes : Passes body good) (change : α → β) :
    Passes (body >>= fun value => pure (change value)) fun result bytes => ∃ value, result = change value ∧
    good value bytes := by
  refine (passes.bind fun value => .pure (change value)).mono ?_
  intro result bytes split
  obtain ⟨value, head, tail, rfl, fine, rfl, rfl⟩ := split
  refine ⟨value, rfl, ?_⟩
  rwa [List.append_nil]

protected theorem repeatWith {body : Decode Unit} {part : Bytes → Prop} (passes : Passes body fun _ => part) (count : Nat) :
    Passes (Proc.repeatWith count (fun _ => body) ()) fun _ => Series part count := by
  induction count with
  | zero =>
    refine (Passes.pure ()).mono ?_
    intro _ bytes nothing
    rw [nothing.2]
    exact series_nil part
  | succ count ih =>
    refine (passes.bind fun _ => ih).mono ?_
    intro _ bytes split
    obtain ⟨-, head, tail, rfl, first, rest⟩ := split
    exact .cons first rest

protected theorem repeatPairs {body : Decode Unit} {part : Bytes → Prop} (passes : Passes body fun _ => part) (count : Nat) :
    Passes (Proc.repeatWith count (fun _ => do body; body) ()) fun _ => Series part (count * 2) := by
  induction count with
  | zero =>
    refine (Passes.pure ()).mono ?_
    intro _ bytes nothing
    rw [nothing.2]
    exact series_nil part
  | succ count ih =>
    refine ((passes.bind fun _ => passes).bind fun _ => ih).mono ?_
    intro _ bytes split
    obtain ⟨-, both, tail, rfl, ⟨-, key, value, rfl, first, second⟩, rest⟩ := split
    rw [Nat.succ_mul, List.append_assoc]
    exact .cons first (.cons second rest)

end Passes

theorem passes_decRead (count : Nat) : Passes (decRead count) fun value bytes => value = bytes ∧ bytes.length = count := by
  intro dec value last done
  unfold decRead at done
  rw [Proc.bind_of_ok (Proc.get_apply dec)] at done
  split at done
  · cases done
  split at done
  · cases done
  next room =>
    have length : (dec.rest.take count).length = count := by
      simp only [Decoder.rest, List.length_take, List.length_drop]
      omega
    cases done
    refine ⟨dec.rest.take count, ?_, ?_, rfl, length⟩
    · simp [Decoder.rest, Decoder.advance, ← List.drop_drop]
    · rw [length]

theorem passes_decString (length : Nat) : Passes (decString length) fun _ bytes => bytes.length = length := by
  intro dec value last done
  unfold decString at done
  rw [Proc.bind_of_ok (Proc.get_apply dec)] at done
  split at done
  · cases done
  next room =>
    have taken : (dec.rest.take length).length = length := by
      rw [Decoder.remaining_eq] at room
      rw [List.length_take]
      omega
    cases done
    refine ⟨dec.rest.take length, ?_, ?_, taken⟩
    · simp [Decoder.rest, Decoder.advance, ← List.drop_drop]
    · rw [taken]

theorem passes_decContainer (count items : Nat) : Passes (decContainer count items) fun value bytes => value = count ∧
    bytes = [] := by
  intro dec value last done
  unfold decContainer at done
  rw [Proc.bind_of_ok (Proc.get_apply dec)] at done
  split at done
  · cases done
  · cases done
    exact ⟨[], rfl, rfl, rfl, rfl⟩

theorem decArgument_reserved {first : UInt8} (known : argumentWidth (first &&& 0x1F) = none) :
    decArgument first = decFail .invalid := by
  obtain ⟨large, one, two, four, eight⟩ := argumentWidth_none known
  unfold decArgument
  dsimp only
  rw [if_neg large]
  split <;> first | rfl | contradiction

theorem passes_decArgument (first : UInt8) : Passes (decArgument first) fun head argument => IsHead first argument head := by
  cases known : argumentWidth (first &&& 0x1F) with
  | none =>
    rw [decArgument_reserved known]
    exact .decFail _ _
  | some width =>
    obtain ⟨small, rfl⟩ | ⟨large, widths⟩ := argumentWidth_cases known
    · unfold decArgument
      dsimp only
      rw [if_pos small]
      refine (Passes.pure _).mono ?_
      rintro head argument ⟨rfl, rfl⟩
      refine ⟨rfl, rfl, known, ?_⟩
      rw [if_pos small, UInt8.toNat_toUInt64]
    · rw [decArgument_wide known large]
      unfold decReadBe
      refine (((passes_decRead width).map _).map _).mono ?_
      rintro head argument ⟨word, rfl, bytes, rfl, rfl, rfl⟩
      refine ⟨rfl, rfl, known, ?_⟩
      rw [if_neg large, toNat_argument (by omega)]

theorem passes_decHead : Passes decHead fun head bytes => ∃ first argument, bytes = first :: argument ∧
    IsHead first argument head := by
  rw [decHead_eq]
  refine ((passes_decRead 1).bind fun bytes => passes_decArgument _).mono ?_
  rintro head bytes ⟨read, front, argument, rfl, ⟨rfl, one⟩, isHead⟩
  obtain ⟨first, rfl⟩ := List.length_eq_one_iff.mp one
  have byte : UInt8.ofNat (beNat [first]) = first := by simp [beNat]
  rw [byte] at isHead
  exact ⟨first, argument, rfl, isHead⟩

/-- What is skipped is an item of the grammar. -/
theorem passes_skipItemDepth (levels : Nat) : Passes (skipItemDepth levels) fun _ => Encodes levels := by
  induction levels with
  | zero => exact .decFail _ _
  | succ levels ih =>
    unfold skipItemDepth
    rw [decodeNext_eq, bind_assoc]
    refine (passes_decHead.bind fun head => (?_ : Passes _ fun _ => Content (Encodes levels) head)).mono ?_
    · unfold decodeItem Content
      cases head.major with
      | uint => exact (Passes.pure ()).mono fun _ _ nothing => nothing.2
      | negint => exact (Passes.pure ()).mono fun _ _ nothing => nothing.2
      | bstr =>
        dsimp only
        rw [bind_assoc]
        refine ((passes_decString _).map fun _ => ()).mono ?_
        rintro _ bytes ⟨-, -, long⟩
        exact long
      | tstr =>
        dsimp only
        rw [bind_assoc]
        refine ((passes_decString _).map fun _ => ()).mono ?_
        rintro _ bytes ⟨-, -, long⟩
        exact long
      | array =>
        dsimp only
        rw [bind_assoc]
        refine ((passes_decContainer _ _).bind fun count => ih.repeatWith count).mono ?_
        rintro _ bytes ⟨count, front, rest, rfl, ⟨rfl, rfl⟩, series⟩
        exact series
      | map =>
        dsimp only
        rw [bind_assoc]
        refine ((passes_decContainer _ _).bind fun count => ih.repeatPairs count).mono ?_
        rintro _ bytes ⟨count, front, rest, rfl, ⟨rfl, rfl⟩, series⟩
        exact series
      | tag => exact ih
      | simple =>
        dsimp only
        split
        · exact (Passes.pure ()).mono fun _ _ nothing => nothing.2
        split
        · exact (Passes.pure ()).mono fun _ _ nothing => nothing.2
        split
        · exact (Passes.pure ()).mono fun _ _ nothing => nothing.2
        · exact (Passes.pure ()).mono fun _ _ nothing => nothing.2
    · rintro _ bytes ⟨head, front, rest, rfl, ⟨first, argument, rfl, isHead⟩, inside⟩
      exact ⟨first, argument, rest, head, rfl, isHead, inside⟩

/-- The number that the head of an integer stands for. -/
def Head.integer (head : Head) : Int :=
  match head.major with
  | .negint => -1 - (head.argument.toNat : Int)
  | _ => head.argument.toNat

def InInt64 (value : Int) : Prop := int64Min ≤ value ∧ value ≤ int64Max

/-- The number as it is, or an error if it does not fit. -/
structure ReadsInteger (head : Head) (dec : Decoder) (size : Nat) : Prop where
  exact : InInt64 head.integer → decodeInt dec = (.ok head.integer, dec.advance size)
  overflow : ¬ InInt64 head.integer → decodeInt dec = (.error .overflow, dec.advance size)

section
variable {first : UInt8} {argument rest : Bytes} {head : Head} {dec : Decoder}

theorem decodeInt_uint (isHead : IsHead first argument head) (uint : head.major = .uint) (clear : dec.error = false)
    (here : dec.rest = first :: (argument ++ rest)) : decodeInt dec =
      (if head.argument.toNat > int64Max then .error .overflow else .ok (head.argument.toNat : Int),
      dec.advance (argument.length + 1)) := by
  have read := reads_isHead isHead dec rest clear here
  unfold decodeInt
  rw [decodeNext_eq, bind_assoc, Proc.bind_of_ok read]
  unfold decodeItem
  rw [uint, pure_bind]
  dsimp only
  split
  · rfl
  · rfl

theorem decodeInt_negint (isHead : IsHead first argument head) (negint : head.major = .negint) (clear : dec.error = false)
    (here : dec.rest = first :: (argument ++ rest)) : decodeInt dec =
      (.ok (if head.argument.toNat ≤ int64Max then -1 - (head.argument.toNat : Int) else int64Min),
      dec.advance (argument.length + 1)) := by
  have read := reads_isHead isHead dec rest clear here
  unfold decodeInt
  rw [decodeNext_eq, bind_assoc, Proc.bind_of_ok read]
  unfold decodeItem
  rw [negint, pure_bind]
  rfl

end

theorem reads_integer_iff (first : UInt8) (argument : Bytes) (head : Head) (isHead : IsHead first argument head)
    (integer : head.major = .uint ∨ head.major = .negint) (dec : Decoder) (clear : dec.error = false) (rest : Bytes)
    (here : dec.rest = first :: (argument ++ rest)) :
    ReadsInteger head dec (argument.length + 1) ↔ ¬ (head.major = .negint ∧ 2 ^ 63 ≤ head.argument.toNat) := by
  rcases integer with uint | negint
  · have done := decodeInt_uint isHead uint clear here
    have value : head.integer = head.argument.toNat := by
      unfold Head.integer
      rw [uint]
    refine ⟨fun _ both => (by cases uint.symm.trans both.1), fun _ => ⟨?_, ?_⟩⟩
    · intro fits
      rw [value] at fits ⊢
      rw [done, if_neg (Nat.not_lt.mpr (Int.ofNat_le.mp fits.2))]
    · intro apart
      rw [value] at apart
      rw [done, if_pos]
      apply Nat.lt_of_not_le
      intro small
      exact apart ⟨Int.le_trans (by decide) (Int.natCast_nonneg _), Int.ofNat_le.mpr small⟩
  · have done := decodeInt_negint isHead negint clear here
    have value : head.integer = -1 - (head.argument.toNat : Int) := by
      unfold Head.integer
      rw [negint]
    have bounds : InInt64 head.integer ↔ head.argument.toNat < 2 ^ 63 := by
      rw [value]
      unfold InInt64 int64Min int64Max
      omega
    constructor
    · rintro reads ⟨-, large⟩
      have overflow := reads.overflow fun fits => by
        have small := bounds.mp fits
        omega
      rw [done] at overflow
      cases overflow
    · intro apart
      have small : head.argument.toNat < 2 ^ 63 := by
        apply Nat.lt_of_not_le
        exact fun large => apart ⟨negint, large⟩
      refine ⟨fun _ => ?_, fun outside => absurd (bounds.mpr small) outside⟩
      rw [done, value, if_pos (by unfold int64Max; omega)]

/-- The smallest number that fits. -/
def smallestInteger : Bytes := [0x3B, 0x7F, 0xFF, 0xFF, 0xFF, 0xFF, 0xFF, 0xFF, 0xFF]

theorem reads_integer_smallest : ReadsInteger ⟨.negint, 27, 0x7FFFFFFFFFFFFFFF⟩ (Decoder.init smallestInteger) 9 := by
  apply (reads_integer_iff 0x3B [0x7F, 0xFF, 0xFF, 0xFF, 0xFF, 0xFF, 0xFF, 0xFF] ⟨.negint, 27, 0x7FFFFFFFFFFFFFFF⟩
    ⟨rfl, rfl, rfl, rfl⟩
    (.inr rfl) (Decoder.init smallestInteger) rfl [] rfl).mpr
  decide

def tooSmallInteger : Bytes := [0x3B, 0x80, 0x00, 0x00, 0x00, 0x00, 0x00, 0x00, 0x00]

theorem too_small_integer_read :
    ¬ ∀ (first : UInt8) (argument : Bytes) (head : Head), IsHead first argument head →
      head.major = .uint ∨ head.major = .negint → ∀ dec : Decoder, dec.error = false →
      ∀ rest, dec.rest = first :: (argument ++ rest) →
        ReadsInteger head dec (argument.length + 1) := by
  intro claimed
  have reads := claimed 0x3B [0x80, 0x00, 0x00, 0x00, 0x00, 0x00, 0x00, 0x00] ⟨.negint, 27, 0x8000000000000000⟩
    ⟨rfl, rfl, rfl, rfl⟩
    (.inr rfl) (Decoder.init tooSmallInteger) rfl [] rfl
  have overflow := reads.overflow (by unfold InInt64; decide)
  cases overflow

end Hiya.Cbor
