import Hiya.Proofs.CborGrammar
import Hiya.Proofs.CborPointers

/-! The size of an item, by the same grammar. So the two walkers agree on where an item
ends wherever both allow for its levels, and neither fetches a byte outside of the buffer. -/

namespace Hiya.Cbor
open Library Raw

theorem fetch_zero (first : UInt8) (rest : Bytes) : fetch (first :: rest) 0 = .ok first := rfl

theorem fetchBe_tail (first : UInt8) (argument rest : Bytes) :
    fetchBe (first :: (argument ++ rest)) 1 argument.length 0 = .ok (beNat argument) := by
  rw [fetchBe_eq, List.drop_succ_cons, List.drop_zero, List.take_left]
  · rfl
  · rw [List.length_cons, List.length_append]
    omega

theorem decodeHeadRaw_small {first : UInt8} {tail : Bytes} {size : Nat} (nonempty : size ≠ 0) (small : first &&& 0x1F ≤ 23) :
    decodeHeadRaw (first :: tail) size = .ok
    (some { size := 1, major := Major.ofHead first, value := (first &&& 0x1F).toNat }) := by
  unfold decodeHeadRaw
  rw [if_neg nonempty, fetch_zero]
  exact if_pos small

theorem decodeHeadRaw_wide {first : UInt8} {tail : Bytes} {size width : Nat} (nonempty : size ≠ 0)
    (known : argumentWidth (first &&& 0x1F) = some width) (large : ¬ first &&& 0x1F ≤ 23) :
    decodeHeadRaw (first :: tail) size =
      if size < width + 1 then .ok none
      else fetchBe (first :: tail) 1 width 0 >>=
      fun value => .ok (some { size := width + 1, major := Major.ofHead first, value }) := by
  obtain ⟨small, -⟩ | ⟨-, same | same | same | same⟩ := argumentWidth_cases known
  · exact absurd small large
  all_goals
    obtain ⟨kind, rfl⟩ := same
    unfold decodeHeadRaw
    rw [if_neg nonempty, fetch_zero]
    refine (if_neg large).trans ?_
    rw [kind]
    rfl

theorem decodeHeadRaw_isHead {first : UInt8} {argument : Bytes} {head : Head} (isHead : IsHead first argument head)
    (rest : Bytes) : decodeHeadRaw (first :: (argument ++ rest)) (first :: (argument ++ rest)).length =
      .ok (some { size := argument.length + 1, major := head.major, value := head.argument.toNat }) := by
  have nonempty : (first :: (argument ++ rest)).length ≠ 0 := Nat.succ_ne_zero _
  have value := isHead.value
  rw [isHead.major]
  obtain ⟨small, none⟩ | ⟨large, -⟩ := argumentWidth_cases isHead.width
  · rw [if_pos small] at value
    rw [decodeHeadRaw_small nonempty small, none, value]
  · rw [if_neg large] at value
    have long : ¬ (first :: (argument ++ rest)).length < argument.length + 1 := by
      rw [List.length_cons, List.length_append]
      omega
    rw [decodeHeadRaw_wide nonempty isHead.width large, if_neg long, fetchBe_tail, value]
    rfl

theorem isHead_of_width {first : UInt8} {argument : Bytes} (known : argumentWidth (first &&& 0x1F) = some argument.length) :
    ∃ head, IsHead first argument head := by
  obtain ⟨small, -⟩ | ⟨large, widths⟩ := argumentWidth_cases known
  · refine ⟨⟨Major.ofHead first, first &&& 0x1F, (first &&& 0x1F).toUInt64⟩, rfl, rfl, known, ?_⟩
    rw [if_pos small, UInt8.toNat_toUInt64]
  · refine ⟨⟨Major.ofHead first, first &&& 0x1F, UInt64.ofNat (beNat argument)⟩, rfl, rfl, known, ?_⟩
    rw [if_neg large, toNat_argument (by omega)]

theorem decodeHeadRaw_reserved {first : UInt8} {tail : Bytes} {size : Nat} (nonempty : size ≠ 0)
    (reserved : argumentWidth (first &&& 0x1F) = none) : decodeHeadRaw (first :: tail) size = .ok none := by
  obtain ⟨large, one, two, four, eight⟩ := argumentWidth_none reserved
  unfold decodeHeadRaw
  rw [if_neg nonempty, fetch_zero]
  refine (if_neg large).trans ?_
  rw [if_neg one, if_neg two, if_neg four, if_neg eight]

/-- A head is there, or the function says that none is. -/
theorem decodeHeadRaw_cases (data : Bytes) :
    decodeHeadRaw data data.length = .ok none ∨
      ∃ first argument rest head, data = first :: (argument ++ rest) ∧ IsHead first argument head := by
  cases data with
  | nil => exact .inl rfl
  | cons first tail =>
    have nonempty : (first :: tail).length ≠ 0 := Nat.succ_ne_zero _
    cases known : argumentWidth (first &&& 0x1F) with
    | none => exact .inl (decodeHeadRaw_reserved nonempty known)
    | some width =>
      by_cases short : tail.length < width
      · obtain ⟨-, rfl⟩ | ⟨large, -⟩ := argumentWidth_cases known
        · exact absurd short (Nat.not_lt_zero _)
        · left
          rw [decodeHeadRaw_wide nonempty known large, if_pos]
          rw [List.length_cons]
          omega
      · have taken : (tail.take width).length = width := by
          rw [List.length_take]
          omega
        obtain ⟨head, isHead⟩ : ∃ head, IsHead first (tail.take width) head := isHead_of_width (by rw [taken]; exact known)
        exact .inr ⟨first, tail.take width, tail.drop width, head, by rw [List.take_append_drop], isHead⟩

/-- A simple value or a float takes as many bytes as its head. -/
theorem simpleSize_isHead {first : UInt8} {argument : Bytes} {head : Head} (isHead : IsHead first argument head)
    (rest : Bytes) :
    simpleSize (first :: (argument ++ rest)) (first :: (argument ++ rest)).length (argument.length + 1) =
    .ok (argument.length + 1) := by
  have long : ¬ argument.length + 1 > (first :: (argument ++ rest)).length := by
    rw [List.length_cons, List.length_append]
    omega
  have size : floatSize (first &&& 0x1F) (argument.length + 1) = argument.length + 1 := by
    have known := isHead.width
    generalize first &&& 0x1F = additional at known
    unfold floatSize
    split
    next two =>
      subst two
      exact congrArg (· + 1) (Option.some.inj known)
    split
    next four =>
      subst four
      exact congrArg (· + 1) (Option.some.inj known)
    split
    next eight =>
      subst eight
      exact congrArg (· + 1) (Option.some.inj known)
    rfl
  unfold simpleSize
  rw [fetch_zero]
  change (if floatSize (first &&& 0x1F) (argument.length + 1) > _ then _ else _) = _
  rw [size, if_neg long]

/-- What a size stands for: a part that begins at `total`. No size is due to a byte
outside of the buffer. -/
def Sized (total : Nat) (part : Bytes → Prop) (data : Bytes) : Except Halt Nat → Prop
  | .ok size => ∃ content rest, data.drop total = content ++ rest ∧ part content ∧ size = total + content.length
  | .error halt => halt ≠ .fault

theorem sizeItems_sized {child : Bytes → Nat → Except Halt Nat} {part : Bytes → Prop}
    (each : ∀ data, Sized 0 part data (child data data.length)) (data : Bytes) (count total : Nat) :
    Sized total (Series part count) data (sizeItems child data data.length count total) := by
  induction count generalizing total with
  | zero => exact ⟨[], data.drop total, rfl, series_nil part, rfl⟩
  | succ count ih =>
    unfold sizeItems
    split
    · exact nofun
    · have first := each (data.drop total)
      rw [List.length_drop] at first
      cases found : child (data.drop total) (data.length - total) with
      | error halt =>
        rw [found] at first
        exact first
      | ok size =>
        rw [found] at first
        obtain ⟨piece, rest, here, isPart, rfl⟩ := first
        rw [List.drop_zero] at here
        have later := ih (total + (0 + piece.length))
        change Sized total (Series part (count + 1)) data
          (sizeItems child data data.length count (total + (0 + piece.length)))
        cases done : sizeItems child data data.length count (total + (0 + piece.length)) with
        | error halt =>
          rw [done] at later
          exact later
        | ok size =>
          rw [done] at later
          obtain ⟨content, rest', there, series, rfl⟩ := later
          rw [Nat.zero_add, ← List.drop_drop, here, List.drop_left] at there
          refine ⟨piece ++ content, rest', ?_, .cons isPart series, ?_⟩
          · rw [here, there, List.append_assoc]
          · rw [List.length_append]
            omega

theorem sized_item {levels : Nat} {first : UInt8} {argument rest : Bytes} {head : Head} (isHead : IsHead first argument head)
    {outcome : Except Halt Nat}
    (content : Sized (argument.length + 1) (Content (Encodes levels) head) (first :: (argument ++ rest)) outcome) :
    Sized 0 (Encodes (levels + 1)) (first :: (argument ++ rest)) outcome := by
  cases outcome with
  | error halt => exact content
  | ok size =>
    obtain ⟨inside, after, here, fine, rfl⟩ := content
    rw [List.drop_succ_cons, List.drop_left] at here
    refine ⟨first :: (argument ++ inside), after, ?_, ⟨first, argument, inside, head, rfl, isHead, fine⟩, ?_⟩
    · rw [List.drop_zero, here, List.cons_append, List.append_assoc]
    · rw [List.length_cons, List.length_append]
      omega

theorem sized_string {total : Nat} {data : Bytes} {value : Nat} (room : total ≤ data.length) :
    Sized total (fun content => content.length = value) data
      (if value > countMax - total ∨ total + value > data.length then .error (.code .invalid) else .ok (total + value)) := by
  split
  · exact nofun
  next fits =>
    have taken : ((data.drop total).take value).length = value := by
      rw [List.length_take, List.length_drop]
      omega
    exact ⟨(data.drop total).take value, (data.drop total).drop value, (List.take_append_drop ..).symm, taken, by rw [taken]⟩

theorem itemEncodedSizeDepth_sized (levels : Nat) (data : Bytes) :
    Sized 0 (Encodes levels) data (itemEncodedSizeDepth levels data data.length) := by
  induction levels generalizing data with
  | zero => exact nofun
  | succ levels ih =>
    unfold itemEncodedSizeDepth
    split
    · exact nofun
    obtain absent | ⟨first, argument, rest, head, rfl, isHead⟩ := decodeHeadRaw_cases data
    · rw [absent]
      exact nofun
    have room : argument.length + 1 ≤ (first :: (argument ++ rest)).length := by
      rw [List.length_cons, List.length_append]
      omega
    rw [decodeHeadRaw_isHead isHead]
    apply sized_item isHead
    unfold Content
    cases major : head.major with
    | uint => exact ⟨[], rest, by simp, rfl, rfl⟩
    | negint => exact ⟨[], rest, by simp, rfl, rfl⟩
    | bstr => exact sized_string room
    | tstr => exact sized_string room
    | array => exact sizeItems_sized ih _ _ _
    | map =>
      change Sized _ (Series (Encodes levels) (head.argument.toNat * 2)) _ (if head.argument.toNat > countMax / 2 then
        _ else _)
      by_cases many : head.argument.toNat > countMax / 2
      · rw [if_pos many]
        exact nofun
      · rw [if_neg many]
        exact sizeItems_sized ih _ _ _
    | tag =>
      have inner := ih ((first :: (argument ++ rest)).drop (argument.length + 1))
      rw [List.length_drop] at inner
      change Sized _ _ _ (itemEncodedSizeDepth levels ((first :: (argument ++ rest)).drop (argument.length + 1))
        ((first :: (argument ++ rest)).length - (argument.length + 1)) >>= fun size => pure (argument.length + 1 + size))
      cases found : itemEncodedSizeDepth levels ((first :: (argument ++ rest)).drop (argument.length + 1))
        ((first :: (argument ++ rest)).length - (argument.length + 1)) with
      | error halt =>
        rw [found] at inner
        exact inner
      | ok size =>
        rw [found] at inner
        obtain ⟨content, after, here, encodes, rfl⟩ := inner
        exact ⟨content, after, here, encodes, by rw [Nat.zero_add]⟩
    | simple =>
      change Sized _ _ _ (simpleSize (first :: (argument ++ rest)) (first :: (argument ++ rest)).length (argument.length + 1))
      rw [simpleSize_isHead isHead]
      exact ⟨[], rest, by simp, rfl, rfl⟩

theorem sizeItems_series {child : Bytes → Nat → Except Halt Nat} {levels count : Nat} {data : Bytes}
    (each : ∀ piece rest, Encodes levels piece → (piece ++ rest).length < 2 ^ 64 →
      child (piece ++ rest) (piece ++ rest).length = .ok piece.length)
    (small : data.length < 2 ^ 64) {total : Nat} {content rest : Bytes} (here : data.drop total = content ++ rest)
    (series : Series (Encodes levels) count content) :
    sizeItems child data data.length count total = .ok (total + content.length) := by
  induction count generalizing total content with
  | zero =>
    obtain ⟨pieces, none, rfl, -⟩ := series
    rw [List.length_eq_zero_iff.mp none]
    rfl
  | succ count ih =>
    obtain ⟨piece, others, rfl, part, series⟩ := series_succ series
    rw [List.append_assoc] at here
    have length := congrArg List.length here
    rw [List.length_drop, List.length_append] at length
    have nonempty := List.length_pos_iff.mpr part.ne_nil
    have first := each piece (others ++ rest) part (by rw [← here, List.length_drop]; omega)
    have there : data.drop (total + piece.length) = others ++ rest := by rw [← List.drop_drop, here, List.drop_left]
    unfold sizeItems
    rw [if_neg (by omega), here, length, ← List.length_append, first]
    change sizeItems child data data.length count (total + piece.length) = _
    rw [ih there series, List.length_append, Nat.add_assoc]

/-- An item of the grammar has its length as size. -/
theorem itemEncodedSizeDepth_encodes {levels : Nat} {bytes : Bytes} (encodes : Encodes levels bytes) (rest : Bytes)
    (small : (bytes ++ rest).length < 2 ^ 64) : itemEncodedSizeDepth levels (bytes ++ rest) (bytes ++ rest).length =
    .ok bytes.length := by
  induction levels generalizing bytes rest with
  | zero => exact encodes.elim
  | succ levels ih =>
    obtain ⟨first, argument, content, head, rfl, isHead, inside⟩ := encodes
    rw [List.cons_append, List.append_assoc] at small ⊢
    have length : (first :: (argument ++ (content ++ rest))).length = argument.length + 1 + content.length + rest.length := by
      simp only [List.length_cons, List.length_append]
      omega
    have whole : (first :: (argument ++ content)).length = argument.length + 1 + content.length := by
      simp only [List.length_cons, List.length_append]
      omega
    have here : (first :: (argument ++ (content ++ rest))).drop (argument.length + 1) = content ++ rest := by
      rw [List.drop_succ_cons, List.drop_left]
    have each (piece rest : Bytes) (part : Encodes levels piece) (small : (piece ++ rest).length < 2 ^ 64) :=
      ih part rest small
    have sized (fits : content.length = head.argument.toNat) :
        (if head.argument.toNat > countMax - (argument.length + 1) ∨
            argument.length + 1 + head.argument.toNat > (first :: (argument ++ (content ++ rest))).length then
          Except.error (Halt.code .invalid) else .ok (argument.length + 1 + head.argument.toNat)) =
          .ok (argument.length + 1 + content.length) := by
      unfold countMax
      rw [← fits, if_neg (by omega)]
    unfold itemEncodedSizeDepth
    rw [if_neg (by omega), decodeHeadRaw_isHead isHead, whole]
    unfold Content at inside
    cases major : head.major with
    | uint =>
      rw [major] at inside
      cases inside
      rfl
    | negint =>
      rw [major] at inside
      cases inside
      rfl
    | bstr =>
      rw [major] at inside
      exact sized inside
    | tstr =>
      rw [major] at inside
      exact sized inside
    | array =>
      rw [major] at inside
      exact sizeItems_series each small here inside
    | map =>
      rw [major] at inside
      dsimp only at inside
      have few := inside.count_le
      unfold countMax
      refine (if_neg ?_).trans (sizeItems_series each small here inside)
      dsimp only
      omega
    | tag =>
      rw [major] at inside
      have inner := ih inside rest (by rw [← here, List.length_drop]; omega)
      change itemEncodedSizeDepth levels ((first :: (argument ++ (content ++ rest))).drop (argument.length + 1))
        ((first :: (argument ++ (content ++ rest))).length - (argument.length + 1)) >>=
          (fun size => pure (argument.length + 1 + size)) = _
      rw [← List.length_drop, here, inner]
      rfl
    | simple =>
      rw [major] at inside
      cases inside
      exact simpleSize_isHead isHead ([] ++ rest)

def decoderAt (data : Bytes) (offset : Nat) : Decoder := { data, offset, error := false }

/-- The size of the item at an offset of a buffer. -/
def sizeAt (data : Bytes) (offset : Nat) : Except Halt Nat := itemEncodedSize (data.drop offset) (data.length - offset)

/-- Both walkers at one offset. -/
structure WalkersAgree (data : Bytes) (offset : Nat) : Prop where
  /-- What is skipped has the size by which the decoder advances. -/
  advances : ∀ last, Raw.skip (decoderAt data offset) = (.ok (), last) →
    ∃ size, sizeAt data offset = .ok size ∧ last = (decoderAt data offset).advance size
  /-- What has a size is skipped, as long as its levels are within the limit. -/
  skips : ∀ size, sizeAt data offset = .ok size → Encodes (maxDepth + 1) ((data.drop offset).take size) →
    Raw.skip (decoderAt data offset) = (.ok (), (decoderAt data offset).advance size)
  skipStays : (Raw.skip (decoderAt data offset)).1 ≠ .error .fault
  sizeStays : sizeAt data offset ≠ .error .fault

theorem raw_skip_ok {dec last : Decoder} : Raw.skip dec = (.ok (), last) ↔ Cbor.skip dec = (.ok (), last) := by
  rw [skip_eq]
  unfold lifted
  cases Cbor.skip dec with
  | mk outcome reached =>
    cases outcome with
    | error problem => simp
    | ok _ => simp

theorem raw_skip_stays (dec : Decoder) : (Raw.skip dec).1 ≠ .error .fault := by
  rw [skip_eq]
  unfold lifted
  cases Cbor.skip dec with
  | mk outcome reached =>
    cases outcome with
    | error problem => exact nofun
    | ok _ => exact nofun

theorem sizeAt_sized (data : Bytes) (offset : Nat) :
    Sized 0 (Encodes (maxSizeDepth + 1)) (data.drop offset) (sizeAt data offset) := by
  have sized := itemEncodedSizeDepth_sized (maxSizeDepth + 1) (data.drop offset)
  rwa [List.length_drop] at sized

theorem walkers_agree (data : Bytes) (offset : Nat) (small : data.length < 2 ^ 64) : WalkersAgree data offset where
  advances last skipped := by
    obtain ⟨bytes, here, rfl, encodes⟩ := passes_skipItemDepth (maxDepth + 1) _ _ _ (raw_skip_ok.mp skipped)
    have rest : data.drop offset = bytes ++ ((decoderAt data offset).advance bytes.length).rest := here
    have within : (bytes ++ ((decoderAt data offset).advance bytes.length).rest).length < 2 ^ 64 := by
      rw [← rest, List.length_drop]
      omega
    refine ⟨bytes.length, ?_, rfl⟩
    have sized := itemEncodedSizeDepth_encodes (encodes.mono (by decide : maxDepth + 1 ≤ maxSizeDepth + 1)) _ within
    rwa [← rest, List.length_drop] at sized
  skips size found encodes := by
    have sized := sizeAt_sized data offset
    rw [found] at sized
    obtain ⟨bytes, rest, here, -, rfl⟩ := sized
    rw [List.drop_zero] at here
    rw [Nat.zero_add, here, List.take_left] at encodes
    rw [Nat.zero_add]
    exact raw_skip_ok.mpr (reads_skipItemDepth encodes (decoderAt data offset) rest rfl here)
  skipStays := raw_skip_stays _
  sizeStays fault := by
    have sized := sizeAt_sized data offset
    rw [fault] at sized
    exact sized rfl

/-- A map of a number to an array, between two numbers. -/
def nestedBytes : Bytes := [0x00, 0xA1, 0x01, 0x82, 0x20, 0x41, 0xFF, 0x05]

theorem walkers_agree_nested : sizeAt nestedBytes 1 = .ok 6 ∧ WalkersAgree nestedBytes 1 :=
  ⟨by decide +kernel, walkers_agree nestedBytes 1 (by decide)⟩

end Hiya.Cbor
