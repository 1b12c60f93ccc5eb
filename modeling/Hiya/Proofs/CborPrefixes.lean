import Hiya.Library.Ends
import Hiya.Library.Prefix
import Hiya.Proofs.CborGrammar

/-! The items of CBOR as words of heads: a head with its string is a token, and a container
or a tag announces what is to follow. The decoder passes over tokens, and where it fails
the bytes break off. -/

namespace Hiya.Cbor
open Library

def Head.behind (head : Head) : Nat :=
  match head.major with
  | .array => head.argument.toNat
  | .map => head.argument.toNat * 2
  | .tag => 1
  | _ => 0

def Head.extent (head : Head) : Nat :=
  match head.major with
  | .bstr => head.argument.toNat
  | .tstr => head.argument.toNat
  | _ => 0

def Token (bytes : Bytes) (behind : Nat) : Prop :=
  ∃ first argument content head, bytes = first :: (argument ++ content) ∧ IsHead first argument head ∧
    content.length = head.extent ∧ behind = head.behind

/-- The first byte settles how long the argument is, and with the argument the head. -/
theorem IsHead.unique {first : UInt8} {argument other rest more : Bytes} {head found : Head}
    (one : IsHead first argument head)
    (two : IsHead first other found) (joined : argument ++ rest = other ++ more) : argument = other ∧ rest = more ∧
    head = found := by
  have long : argument.length = other.length := Option.some.inj (one.width.symm.trans two.width)
  obtain ⟨rfl, rfl⟩ := List.append_inj joined long
  refine ⟨rfl, rfl, ?_⟩
  obtain ⟨major, additional, word⟩ := head
  obtain ⟨kind, extra, value⟩ := found
  obtain ⟨rfl, rfl, -, first⟩ := one
  obtain ⟨rfl, rfl, -, second⟩ := two
  have same : word = value := UInt64.toNat_inj.mp (first.trans second.symm)
  rw [same]

theorem parted_token : Parted Token where
  nonempty := by
    rintro bytes behind ⟨first, argument, content, head, rfl, -, -⟩
    exact List.cons_ne_nil _ _
  unique := by
    rintro bytes other rest more behind expected ⟨first, argument, content, head, rfl, isHead, long, rfl⟩
      ⟨front, extra, string, found, rfl, isOther, wide, rfl⟩ joined
    rw [List.cons_append, List.cons_append, List.append_assoc, List.append_assoc] at joined
    obtain ⟨rfl, arguments⟩ := List.cons.inj joined
    obtain ⟨rfl, strings, rfl⟩ := isHead.unique isOther arguments
    obtain ⟨rfl, -⟩ := List.append_inj strings (long.trans wide.symm)
    exact ⟨rfl, rfl⟩

theorem leaves_series {part : Bytes → Prop} {count : Nat} {content : Bytes}
    (each : ∀ piece, part piece → Leaves Token 1 piece 0) (series : Series part count content) :
    Leaves Token count content 0 := by
  induction count generalizing content with
  | zero =>
    obtain ⟨pieces, none, rfl, -⟩ := series
    rw [List.length_eq_zero_iff.mp none]
    exact .nil 0
  | succ count ih =>
    obtain ⟨piece, rest, rfl, fine, series⟩ := series_succ series
    have first := (each piece fine).frame count
    rw [Nat.zero_add, Nat.add_comm] at first
    exact first.append (ih series)

theorem Encodes.leaves {levels : Nat} {bytes : Bytes} (encodes : Encodes levels bytes) : Leaves Token 1 bytes 0 := by
  induction levels generalizing bytes with
  | zero => exact encodes.elim
  | succ levels ih =>
    obtain ⟨first, argument, content, head, rfl, isHead, inside⟩ := encodes
    have bare (none : head.extent = 0) : Token (first :: argument) head.behind :=
      ⟨first, argument, [], head, by rw [List.append_nil], isHead, none.symm, rfl⟩
    have whole (string : content.length = head.extent) (last : head.behind = 0) :
      Leaves Token 1 (first :: (argument ++ content)) 0 := by
      have one : Leaves Token (0 + 1) _ (0 + head.behind) :=
        Leaves.single ⟨first, argument, content, head, rfl, isHead, string, rfl⟩
      rwa [last] at one
    have followed (none : head.extent = 0) (others : Leaves Token head.behind content 0) :
        Leaves Token 1 (first :: (argument ++ content)) 0 := by
      rw [← List.cons_append]
      refine Leaves.cons (bare none) ?_
      rwa [Nat.zero_add]
    unfold Content at inside
    unfold Head.extent Head.behind at whole followed
    cases major : head.major with
    | array =>
      simp only [major] at inside followed
      exact followed trivial (leaves_series (fun _ => ih) inside)
    | map =>
      simp only [major] at inside followed
      exact followed trivial (leaves_series (fun _ => ih) inside)
    | tag =>
      simp only [major] at inside followed
      exact followed trivial (ih inside)
    | bstr =>
      simp only [major] at inside whole
      exact whole inside trivial
    | tstr =>
      simp only [major] at inside whole
      exact whole inside trivial
    | uint =>
      simp only [major] at inside whole
      exact whole (List.length_eq_zero_iff.mpr inside) trivial
    | negint =>
      simp only [major] at inside whole
      exact whole (List.length_eq_zero_iff.mpr inside) trivial
    | simple =>
      simp only [major] at inside whole
      exact whole (List.length_eq_zero_iff.mpr inside) trivial

theorem Series.split {part : Bytes → Prop} {front back : Nat} {content : Bytes}
    (series : Series part (front + back) content) :
    ∃ first second, content = first ++ second ∧ Series part front first ∧ Series part back second := by
  obtain ⟨pieces, counted, rfl, each⟩ := series
  have parts := List.take_append_drop front pieces
  refine ⟨(pieces.take front).flatten, (pieces.drop front).flatten, ?_, ⟨_, ?_, rfl, ?_⟩, ⟨_, ?_, rfl, ?_⟩⟩
  · rw [← List.flatten_append, parts]
  · rw [List.length_take]
    omega
  · exact fun piece inside => each piece (List.mem_of_mem_take inside)
  · rw [List.length_drop]
    omega
  · exact fun piece inside => each piece (List.mem_of_mem_drop inside)

theorem Token.encodes {bytes content : Bytes} {behind levels : Nat} (token : Token bytes behind)
    (series : Series (Encodes levels) behind content) : Encodes (levels + 1) (bytes ++ content) := by
  obtain ⟨first, argument, string, head, rfl, isHead, long, rfl⟩ := token
  have alone {content : Bytes} (series : Series (Encodes levels) 0 content) : content = [] := by
    obtain ⟨pieces, none, rfl, -⟩ := series
    rw [List.length_eq_zero_iff.mp none]
    rfl
  refine ⟨first, argument, string ++ content, head, by simp, isHead, ?_⟩
  unfold Content
  unfold Head.behind at series
  unfold Head.extent at long
  cases major : head.major with
  | array =>
    simp only [major] at series long
    rw [List.length_eq_zero_iff.mp long]
    exact series
  | map =>
    simp only [major] at series long
    rw [List.length_eq_zero_iff.mp long]
    exact series
  | tag =>
    simp only [major] at series long
    rw [List.length_eq_zero_iff.mp long]
    obtain ⟨piece, rest, rfl, fine, nothing⟩ := series_succ series
    rw [alone nothing, List.append_nil]
    exact fine
  | bstr =>
    simp only [major] at series long
    rw [alone series, List.append_nil]
    exact long
  | tstr =>
    simp only [major] at series long
    rw [alone series, List.append_nil]
    exact long
  | uint =>
    simp only [major] at series long
    rw [alone series, List.length_eq_zero_iff.mp long]
    rfl
  | negint =>
    simp only [major] at series long
    rw [alone series, List.length_eq_zero_iff.mp long]
    rfl
  | simple =>
    simp only [major] at series long
    rw [alone series, List.length_eq_zero_iff.mp long]
    rfl

/-- A complete word is as many items as were due. -/
theorem series_of_leaves {due : Nat} {bytes : Bytes} (leaves : Leaves Token due bytes 0) :
    ∃ levels, Series (Encodes levels) due bytes := by
  generalize nothing : 0 = left at leaves
  induction leaves with
  | nil due =>
    subst nothing
    exact ⟨0, series_nil _⟩
  | @cons head rest behind due left token others ih =>
    obtain ⟨levels, series⟩ := ih nothing
    rw [Nat.add_comm] at series
    obtain ⟨own, others, rfl, inside, after⟩ := series.split
    rw [← List.append_assoc]
    exact ⟨levels + 1, .cons (token.encodes inside) (after.mono fun _ => Encodes.succ)⟩

theorem encodes_iff_leaves {bytes : Bytes} : (∃ levels, Encodes levels bytes) ↔ Leaves Token 1 bytes 0 := by
  constructor
  · rintro ⟨levels, encodes⟩
    exact encodes.leaves
  · intro leaves
    obtain ⟨levels, series⟩ := series_of_leaves leaves
    obtain ⟨piece, rest, rfl, encodes, pieces, none, rfl, -⟩ := series_succ series
    rw [List.length_eq_zero_iff.mp none]
    refine ⟨levels, ?_⟩
    rwa [List.flatten_nil, List.append_nil]

def Item.behind : Item → Nat
  | .array count => count
  | .map count => count * 2
  | .tag _ => 1
  | _ => 0

theorem stuck_nil : Stuck Token [] := by
  intro head behind rest token empty
  exact parted_token.nonempty token (List.append_eq_nil_iff.mp empty.symm).1

/-- A first byte without the argument it asks for. -/
theorem stuck_single {first : UInt8} (longer : argumentWidth (first &&& 0x1F) ≠ some 0) : Stuck Token [first] := by
  rintro bytes behind rest ⟨byte, argument, content, head, rfl, isHead, -, -⟩ same
  obtain ⟨rfl, empty⟩ := List.cons.inj same
  have none := (List.append_eq_nil_iff.mp (List.append_eq_nil_iff.mp empty.symm).1).1
  rw [isHead.width, none] at longer
  exact longer rfl

theorem stuck_head {first : UInt8} {argument : Bytes} {head : Head} (isHead : IsHead first argument head)
    (longer : 0 < head.extent) :
    Stuck Token (first :: argument) := by
  rintro bytes behind rest ⟨byte, other, content, found, rfl, isOther, long, -⟩ same
  rw [List.cons_append, List.append_assoc] at same
  obtain ⟨rfl, arguments⟩ := List.cons.inj same
  rw [← List.append_nil argument] at arguments
  obtain ⟨rfl, empty, rfl⟩ := isHead.unique isOther arguments
  rw [(List.append_eq_nil_iff.mp empty.symm).1] at long
  exact absurd long (Nat.ne_of_lt longer)

/-- From a decoder without an error: a body that succeeds brings what was due but for what
its value leaves, and one that fails breaks off and keeps the error. -/
def Settles {α : Type} (body : Decode α) (due : Nat) (left : α → Nat) : Prop :=
  ∀ dec, dec.error = false → Proc.Ends body dec fun outcome last => ∃ bytes, dec.rest = bytes ++ last.rest ∧
    match outcome with
    | .ok value => last = dec.advance bytes.length ∧ Leaves Token due bytes (left value)
    | .error _ => last = (dec.advance bytes.length).setError ∧ Halts Token due bytes

namespace Settles
variable {α β : Type}

protected theorem pure {due : Nat} {left : α → Nat} {value : α} (same : left value = due) :
    Settles (pure value) due left := by
  intro dec clear
  refine .pure ⟨[], rfl, rfl, ?_⟩
  rw [same]
  exact .nil due

protected theorem decFail {due : Nat} {left : α → Nat} (problem : Error) : Settles (decFail problem) (due + 1) left := by
  intro dec clear
  exact ⟨[], rfl, rfl, [], [], due, rfl, .nil _, stuck_nil⟩

protected theorem bind {first : Decode α} {next : α → Decode β} {due : Nat} {middle : α → Nat} {left : β → Nat}
    (start : Settles first due middle) (continues : ∀ value, Settles (next value) (middle value) left) :
    Settles (first >>= next) due left := by
  intro dec clear
  apply Proc.Ends.bind
  refine (start dec clear).mono ?_
  rintro (problem | value) reached ⟨head, here, account⟩
  · exact ⟨head, here, account⟩
  · obtain ⟨rfl, leaves⟩ := account
    refine (continues value (dec.advance head.length) clear).mono ?_
    rintro (problem | result) last ⟨tail, there, rfl, account⟩
    · refine ⟨head ++ tail, ?_, ?_, .after leaves account⟩
      · rw [here, there, List.append_assoc]
      · rw [Decoder.advance_advance, List.length_append]
    · refine ⟨head ++ tail, ?_, ?_, leaves.append account⟩
      · rw [here, there, List.append_assoc]
      · rw [Decoder.advance_advance, List.length_append]

protected theorem frame {body : Decode α} {due : Nat} {left : α → Nat} (settles : Settles body due left) (more : Nat) :
    Settles body (due + more) fun value => left value + more := by
  intro dec clear
  refine (settles dec clear).mono ?_
  rintro (problem | value) last ⟨bytes, here, moved, account⟩
  · exact ⟨bytes, here, moved, account.frame more⟩
  · exact ⟨bytes, here, moved, account.frame more⟩

protected theorem repeatWith {body : α → Decode α} {due : Nat} (each : ∀ acc, Settles (body acc) due fun _ => 0)
    (count : Nat) :
    ∀ acc, Settles (Proc.repeatWith count body acc) (count * due) fun _ => 0 := by
  induction count with
  | zero =>
    intro acc
    exact .pure (Nat.zero_mul due).symm
  | succ count ih =>
    intro acc
    have first := (each acc).frame (count * due)
    rw [Nat.zero_add, Nat.add_comm, ← Nat.succ_mul] at first
    exact first.bind ih

end Settles

theorem decRead_fails {dec last : Decoder} {count : Nat} {problem : Error} (clear : dec.error = false) (positive : 0 < count)
    (failed : decRead count dec = (.error problem, last)) : dec.rest.length < count ∧ last = dec.setError := by
  unfold decRead at failed
  rw [Proc.bind_of_ok (Proc.get_apply dec), clear, if_neg Bool.false_ne_true] at failed
  split at failed
  next short =>
    cases failed
    refine ⟨?_, rfl⟩
    rw [Decoder.rest, List.length_drop]
    omega
  · cases failed

theorem decArgument_fails {dec last : Decoder} {first : UInt8} {problem : Error} (clear : dec.error = false)
    (failed : decArgument first dec = (.error problem, last)) :
    argumentWidth (first &&& 0x1F) ≠ some 0 ∧ last = dec.setError := by
  cases known : argumentWidth (first &&& 0x1F) with
  | none =>
    refine ⟨nofun, ?_⟩
    rw [decArgument_reserved known] at failed
    cases failed
    rfl
  | some width =>
    obtain ⟨small, rfl⟩ | ⟨large, widths⟩ := argumentWidth_cases known
    · unfold decArgument at failed
      rw [if_pos small] at failed
      cases failed
    · have positive : 0 < width := by omega
      refine ⟨fun none => absurd (Option.some.inj none) (Nat.ne_of_gt positive), ?_⟩
      rw [decArgument_wide known large] at failed
      cases read : decRead width dec with
      | mk outcome reached =>
        cases outcome with
        | error trouble =>
          have stopped : decReadBe width dec = (.error trouble, reached) := Proc.bind_of_error read
          rw [Proc.bind_of_error stopped] at failed
          cases failed
          exact (decRead_fails clear positive read).2
        | ok bytes =>
          have word : decReadBe width dec = (.ok (UInt64.ofNat (beNat bytes)), reached) := Proc.bind_of_ok read
          rw [Proc.bind_of_ok word] at failed
          cases failed

theorem decHead_fails {dec last : Decoder} {problem : Error} (clear : dec.error = false)
    (failed : decHead dec = (.error problem, last)) :
    ∃ bytes, dec.rest = bytes ++ last.rest ∧ last = (dec.advance bytes.length).setError ∧ Stuck Token bytes := by
  rw [decHead_eq] at failed
  cases read : decRead 1 dec with
  | mk outcome reached =>
    cases outcome with
    | error trouble =>
      rw [Proc.bind_of_error read] at failed
      cases failed
      obtain ⟨-, rfl⟩ := decRead_fails clear Nat.one_pos read
      exact ⟨[], rfl, rfl, stuck_nil⟩
    | ok bytes =>
      rw [Proc.bind_of_ok read] at failed
      obtain ⟨front, here, rfl, rfl, one⟩ := passes_decRead 1 dec bytes reached read
      obtain ⟨first, rfl⟩ := List.length_eq_one_iff.mp one
      have byte : UInt8.ofNat (beNat [first]) = first := by simp [beNat]
      rw [byte] at failed
      have still : (dec.advance 1).error = false := clear
      obtain ⟨longer, rfl⟩ := decArgument_fails still failed
      exact ⟨[first], here, rfl, stuck_single longer⟩

section
variable {first : UInt8} {argument : Bytes} {head : Head}

/-- What the bytes after a head come to: the token is complete, or they break off. -/
def Completes (first : UInt8) (argument : Bytes) (dec : Decoder) (outcome : Except Error Item) (last : Decoder) : Prop :=
  ∃ content, dec.rest = content ++ last.rest ∧
    match outcome with
    | .ok item => last = dec.advance content.length ∧ Leaves Token 1 (first :: (argument ++ content)) item.behind
    | .error _ => last = (dec.advance content.length).setError ∧ Halts Token 1 (first :: (argument ++ content))

theorem leaves_token (isHead : IsHead first argument head) {content : Bytes} (string : content.length = head.extent) :
    Leaves Token 1 (first :: (argument ++ content)) head.behind := by
  have one : Leaves Token (0 + 1) _ (0 + head.behind) := .single ⟨first, argument, content, head, rfl, isHead, string, rfl⟩
  rwa [Nat.zero_add, Nat.zero_add] at one

theorem completes_plain (isHead : IsHead first argument head) (none : head.extent = 0) {item : Item}
    (same : head.behind = item.behind)
    (dec : Decoder) : Proc.Ends (pure item) dec (Completes first argument dec) := by
  refine .pure ⟨[], rfl, rfl, ?_⟩
  rw [← same]
  exact leaves_token isHead none.symm

theorem completes_string (isHead : IsHead first argument head) {make : Bytes → Item} (none : head.behind = 0)
    (same : ∀ data, (make data).behind = 0) (dec : Decoder) :
    Proc.Ends (decString head.extent >>= fun data => pure (make data)) dec (Completes first argument dec) := by
  apply Proc.Ends.bind
  cases read : decString head.extent dec with
  | mk outcome last =>
    unfold Proc.Ends
    rw [read]
    cases outcome with
    | ok data =>
      obtain ⟨content, here, rfl, long⟩ := passes_decString head.extent dec data last read
      refine ⟨content, here, rfl, ?_⟩
      rw [same, ← none]
      exact leaves_token isHead long
    | error problem =>
      unfold decString at read
      rw [Proc.bind_of_ok (Proc.get_apply dec)] at read
      split at read
      next longer =>
        cases read
        refine ⟨[], rfl, rfl, [], first :: argument, 0, ?_, .nil _, stuck_head isHead (Nat.zero_lt_of_lt longer)⟩
        rw [List.append_nil, List.nil_append]
      · cases read

theorem completes_container (isHead : IsHead first argument head) (none : head.extent = 0) {make : Nat → Item} {count : Nat}
    (same : (make count).behind = head.behind) (dec : Decoder) :
    Proc.Ends (decContainer count head.behind >>= fun count => pure (make count)) dec (Completes first argument dec) := by
  apply Proc.Ends.bind
  cases read : decContainer count head.behind dec with
  | mk outcome last =>
    unfold Proc.Ends
    rw [read]
    unfold decContainer at read
    rw [Proc.bind_of_ok (Proc.get_apply dec)] at read
    split at read
    next more =>
      cases read
      obtain ⟨left, some⟩ := Nat.exists_eq_add_one.mpr (Nat.zero_lt_of_lt more)
      have leaves : Leaves Token 1 (first :: (argument ++ [])) head.behind := leaves_token isHead none.symm
      rw [some] at leaves
      exact ⟨[], rfl, rfl, _, [], left, (List.append_nil _).symm, leaves, stuck_nil⟩
    · cases read
      refine ⟨[], rfl, rfl, ?_⟩
      rw [same]
      exact leaves_token isHead none.symm

theorem completes_decodeItem (isHead : IsHead first argument head) (dec : Decoder) :
    Proc.Ends (decodeItem head) dec (Completes first argument dec) := by
  have plain := @completes_plain _ _ _ isHead
  have string := @completes_string _ _ _ isHead
  have container := @completes_container _ _ _ isHead
  unfold Head.extent Head.behind at plain string container
  unfold decodeItem
  cases major : head.major with
  | uint =>
    simp only [major] at plain
    exact plain trivial rfl dec
  | negint =>
    simp only [major] at plain
    exact plain trivial rfl dec
  | bstr =>
    simp only [major] at string
    exact string trivial (fun _ => rfl) dec
  | tstr =>
    simp only [major] at string
    exact string trivial (fun _ => rfl) dec
  | array =>
    simp only [major] at container
    exact container trivial rfl dec
  | map =>
    simp only [major] at container
    exact container trivial rfl dec
  | tag =>
    simp only [major] at plain
    exact plain trivial rfl dec
  | simple =>
    simp only [major] at plain
    dsimp only
    split
    · exact plain trivial rfl dec
    split
    · exact plain trivial rfl dec
    split
    · exact plain trivial rfl dec
    · exact plain trivial rfl dec

end

theorem decHead_ends (dec : Decoder) (clear : dec.error = false) : Proc.Ends decHead dec fun outcome reached =>
    ∃ bytes, dec.rest = bytes ++ reached.rest ∧
      match outcome with
      | .ok head => reached = dec.advance bytes.length ∧ ∃ first argument, bytes = first :: argument ∧
      IsHead first argument head
      | .error _ => reached = (dec.advance bytes.length).setError ∧ Stuck Token bytes := by
  unfold Proc.Ends
  cases read : decHead dec with
  | mk outcome reached =>
    cases outcome with
    | error problem => exact decHead_fails clear read
    | ok head => exact passes_decHead dec head reached read

theorem settles_decodeNext : Settles decodeNext 1 Item.behind := by
  intro dec clear
  rw [decodeNext_eq]
  apply Proc.Ends.bind
  refine (decHead_ends dec clear).mono ?_
  rintro (problem | head) reached ⟨bytes, here, rfl, account⟩
  · exact ⟨bytes, here, rfl, [], bytes, 0, rfl, .nil _, account⟩
  · obtain ⟨first, argument, rfl, isHead⟩ := account
    refine (completes_decodeItem isHead _).mono ?_
    rintro (problem | item) last ⟨content, there, rfl, account⟩
    · refine ⟨first :: (argument ++ content), ?_, ?_, account⟩
      · rw [here, there, ← List.cons_append, List.append_assoc]
      · rw [Decoder.advance_advance, ← List.cons_append, List.length_append]
    · refine ⟨first :: (argument ++ content), ?_, ?_, account⟩
      · rw [here, there, ← List.cons_append, List.append_assoc]
      · rw [Decoder.advance_advance, ← List.cons_append, List.length_append]

theorem settles_skipItemDepth (room : Nat) : Settles (skipItemDepth room) 1 fun _ => 0 := by
  induction room with
  | zero => exact .decFail _
  | succ room ih =>
    unfold skipItemDepth
    refine settles_decodeNext.bind fun item => ?_
    cases item with
    | array count =>
      have items := Settles.repeatWith (fun _ : Unit => ih) count ()
      rwa [Nat.mul_one] at items
    | map count =>
      refine Settles.repeatWith (fun _ : Unit => ?_) count ()
      exact (ih.frame 1).bind fun _ => ih
    | tag value => exact ih
    | _ => exact .pure rfl

theorem settles_skip : Settles skip 1 fun _ => 0 := settles_skipItemDepth _

end Hiya.Cbor
