import Hiya.Pm.Hibp

/-! Which lines of a response are taken, and what their count is. The suffix has to be whole in
front of the first colon; the count is left to `strtoull`, which takes more than plain digits. -/

namespace Hiya.Pm.Hibp
open Library Audit

def withoutReturn (line : Bytes) : Bytes := if line.getLast? = some carriageReturn then line.dropLast else line

/-- Something stands there, and the conversion takes all of it that the buffer has, up to a zero. -/
structure Counts (field : Bytes) (count : UInt64) : Prop where
  there : field ≠ []
  taken : strtoull (cString (field.take 31)) = ⟨count.toNat, false, []⟩

/-- In front of the first colon is the suffix, in either case, and behind it a count. -/
structure Names (suffix line : Bytes) (count : UInt64) : Prop where
  parts : ∃ front field, withoutReturn line = front ++ colon :: field ∧ colon ∉ front ∧
    sameLetters front suffix = true ∧ Counts field count

/-- The first line that names the suffix has this count. -/
def FirstNames (suffix response : Bytes) (count : UInt64) : Prop :=
  ∃ before line after, splitLines response = before ++ line :: after ∧ Names suffix line count ∧
    ∀ other ∈ before, ∀ another, ¬ Names suffix other another

/-- Digits and nothing else, not too many of them for the buffer or for a word. -/
structure Decimal (field : Bytes) : Prop where
  there : field ≠ []
  digits : ∀ byte ∈ field, isDigitOf 10 byte = true
  short : field.length ≤ 31
  small : numeral 10 field < 2 ^ 64

theorem strtoull_bounds (text : Bytes) : 0 ≤ (strtoull text).value ∧ (strtoull text).value < 2 ^ 64 := by
  unfold strtoull
  split
  · dsimp only
    omega
  · split
    · dsimp only
      omega
    · dsimp only
      split
      · exact ⟨Int.emod_nonneg _ (by decide), Int.emod_lt_of_pos _ (by decide)⟩
      · omega

theorem parseCount_iff {field : Bytes} {count : UInt64} (there : field ≠ []) : parseCount field = some count ↔
    Counts field count := by
  obtain ⟨low, high⟩ := strtoull_bounds (cString (field.take 31))
  unfold parseCount
  dsimp only
  constructor
  · intro parsed
    split at parsed
    next whole =>
      cases parsed
      have word : ((UInt64.ofNat (strtoull (cString (field.take 31))).value.toNat).toNat : Int) =
        (strtoull (cString (field.take 31))).value := by
        rw [UInt64.toNat_ofNat_of_lt' (show _ < 2 ^ 64 by omega), Int.toNat_of_nonneg low]
      refine ⟨there, ?_⟩
      rw [word, ← whole.1, ← whole.2]
    next => cases parsed
  · intro counts
    rw [counts.taken, if_pos ⟨rfl, rfl⟩, Int.toNat_natCast, UInt64.ofNat_toNat]

theorem digit_values {byte : UInt8} (digit : isDigitOf 10 byte = true) : 48 ≤ byte ∧ byte ≤ 57 := by
  unfold isDigitOf digitOf at digit
  split at digit
  next is => exact is
  next =>
    split at digit
    next is =>
      rw [Option.any_some, decide_eq_true_eq] at digit
      have low := UInt8.le_iff_toNat_le.mp is.1
      simp only [UInt8.reduceToNat] at low
      omega
    next =>
      split at digit
      next is =>
        rw [Option.any_some, decide_eq_true_eq] at digit
        have low := UInt8.le_iff_toNat_le.mp is.1
        simp only [UInt8.reduceToNat] at low
        omega
      next => cases digit

/-- Digits are scanned as they stand: they are no white space and no sign. -/
theorem scanNumber_digits {first : UInt8} {rest : Bytes} (digits : ∀ byte ∈ first :: rest, isDigitOf 10 byte = true) :
    scanNumber (fun text => (10, text)) (first :: rest) = some ⟨false, numeral 10 (first :: rest), []⟩ := by
  obtain ⟨low, high⟩ := digit_values (digits first List.mem_cons_self)
  have whole : (first :: rest).takeWhile (isDigitOf 10) = first :: rest := List.takeWhile_eq_self_iff.mpr digits
  have dark : isWhite first = false := by
    unfold isWhite
    rw [decide_eq_false_iff_not]
    rintro (rfl | ⟨_, small⟩)
    · exact absurd low (by decide)
    · exact absurd (UInt8.le_trans low small) (by decide)
  have unsigned : ∀ sign : UInt8, sign < 48 → first ≠ sign := fun sign below is => UInt8.not_le.mpr below (is ▸ low)
  unfold scanNumber
  rw [List.dropWhile_cons_of_neg (by rw [dark]; decide)]
  dsimp only
  split
  next is => exact absurd (List.cons.inj is).1 (unsigned 43 (by decide))
  next is => exact absurd (List.cons.inj is).1 (unsigned 45 (by decide))
  next =>
    dsimp only
    rw [whole, if_neg (List.cons_ne_nil _ _), List.drop_length]

/-- A field of digits is taken as the number they write. -/
theorem Decimal.counts {field : Bytes} (decimal : Decimal field) : Counts field (UInt64.ofNat (numeral 10 field)) where
  there := decimal.there
  taken := by
    have clean : 0 ∉ field := fun zero => absurd (digit_values (decimal.digits 0 zero)).1 (by decide)
    obtain ⟨first, rest, rfl⟩ := List.exists_cons_of_ne_nil decimal.there
    rw [List.take_of_length_le decimal.short, cString_eq clean, strtoull, scanNumber_digits decimal.digits]
    dsimp only
    rw [if_neg (Nat.not_le.mpr decimal.small), UInt64.toNat_ofNat_of_lt' decimal.small]
    rfl

theorem toLower_zero {byte : UInt8} (lowered : toLower byte = toLower 0) : byte = 0 := by
  unfold toLower at lowered
  rw [if_neg (show ¬ ((65 : UInt8) ≤ 0 ∧ (0 : UInt8) ≤ 90) by decide)] at lowered
  split at lowered
  next upper =>
    have value := congrArg UInt8.toNat lowered
    obtain ⟨low, high⟩ := upper
    simp only [UInt8.le_iff_toNat_le, UInt8.reduceToNat] at low high
    simp only [UInt8.toNat_add, UInt8.reduceToNat] at value
    omega
  next => exact lowered

theorem sameLetters_length {first second : Bytes} (same : sameLetters first second = true) :
    first.length = second.length := by
  have lengths := congrArg List.length (of_decide_eq_true same)
  simpa using lengths

/-- Against a suffix of this length, `strncasecmp` compares all of it. -/
theorem sameStart_iff {front : Bytes} {suffix : CStr} (whole : suffix.bytes.length = 35) :
    (front.length = 35 ∧ sameStart 35 front suffix.bytes = true) ↔ sameLetters front suffix.bytes = true := by
  have all : cString (suffix.bytes.take 35) = suffix.bytes := by
    rw [List.take_of_length_le (Nat.le_of_eq whole), cString_eq suffix.clean]
  unfold sameStart
  rw [all]
  constructor
  · intro both
    obtain ⟨length, same⟩ := both
    rw [List.take_of_length_le (Nat.le_of_eq length)] at same
    have lengths := sameLetters_length same
    have starts : cString front <+: front := List.takeWhile_prefix _
    have kept : cString front = front := starts.eq_of_length (by rw [lengths, whole, length])
    rwa [kept] at same
  · intro same
    have length := (sameLetters_length same).trans whole
    have clean : 0 ∉ front := by
      intro zero
      have mapped : toLower 0 ∈ suffix.bytes.map toLower := of_decide_eq_true same ▸ List.mem_map_of_mem zero
      obtain ⟨byte, member, lowered⟩ := List.mem_map.mp mapped
      exact suffix.clean (toLower_zero lowered ▸ member)
    rw [List.take_of_length_le (Nat.le_of_eq length), cString_eq clean]
    exact ⟨length, same⟩

theorem takeWhile_colon {front field : Bytes} (clean : colon ∉ front) :
    (front ++ colon :: field).takeWhile (· ≠ colon) = front := by
  have letters : ∀ byte ∈ front, decide (byte ≠ colon) = true :=
    fun byte member => decide_eq_true fun is => clean (by rwa [← is])
  rw [List.takeWhile_append_of_pos letters, List.takeWhile_cons_of_neg (by decide), List.append_nil]

/-- A text that is longer than what stands before a mark goes on with the mark. -/
theorem mark_split {mark : UInt8} {line : Bytes} (longer : (line.takeWhile (· ≠ mark)).length < line.length) :
    line = line.takeWhile (· ≠ mark) ++ mark :: line.drop ((line.takeWhile (· ≠ mark)).length + 1) := by
  induction line with
  | nil => exact absurd longer (Nat.lt_irrefl 0)
  | cons byte line ih =>
    by_cases is : byte = mark
    · rw [List.takeWhile_cons_of_neg (by simpa using is), is]
      rfl
    · rw [List.takeWhile_cons_of_pos (by simpa using is)] at longer ⊢
      rw [List.cons_append, List.length_cons, List.drop_succ_cons]
      exact congrArg (byte :: ·) (ih (Nat.lt_of_succ_lt_succ longer))

theorem parseLine_iff {suffix : CStr} (whole : suffix.bytes.length = 35) {line : Bytes} {count : UInt64} :
    parseLine suffix.bytes line = some count ↔ Names suffix.bytes line count := by
  unfold parseLine
  rw [← withoutReturn]
  dsimp only
  constructor
  · intro parsed
    split at parsed
    next longer =>
      split at parsed
      next same =>
        split at parsed
        next there =>
          refine ⟨_, _, mark_split longer, fun member => ?_, (sameStart_iff whole).mp same, (parseCount_iff there).mp parsed⟩
          have apart := List.mem_takeWhile_imp member
          exact absurd rfl (of_decide_eq_true apart)
        next => cases parsed
      next => cases parsed
    next => cases parsed
  · intro names
    obtain ⟨front, field, parts, clean, same, counts⟩ := names.parts
    have behind : (front ++ colon :: field).drop (front.length + 1) = field := by
      rw [← List.drop_drop, List.drop_left, List.drop_succ_cons, List.drop_zero]
    rw [parts, takeWhile_colon clean, behind, if_pos (by simp), if_pos ((sameStart_iff whole).mpr same), if_pos counts.there]
    exact (parseCount_iff counts.there).mpr counts

/-- The lines of a text are its first one and those behind a line feed, if there is one. -/
theorem splitLines_eq (response : Bytes) : splitLines response = response.takeWhile (· ≠ newline) ::
    if (response.takeWhile (· ≠ newline)).length < response.length then
      splitLines (response.drop ((response.takeWhile (· ≠ newline)).length + 1)) else [] := by
  have apart : ∀ byte ∈ response.takeWhile (· ≠ newline), (byte == newline) = false := by
    intro byte member
    have apart := List.mem_takeWhile_imp member
    exact beq_eq_false_iff_ne.mpr (of_decide_eq_true apart)
  unfold splitLines
  rw [List.splitOn_eq_splitOnP]
  split
  next longer =>
    conv => lhs; rw [mark_split longer]
    rw [List.splitOnP_append_cons_of_forall_mem apart newline (beq_self_eq_true newline), List.splitOn_eq_splitOnP]
  next whole =>
    have all : response.takeWhile (· ≠ newline) = response :=
      (List.takeWhile_prefix _).eq_of_length (Nat.le_antisymm (List.takeWhile_prefix _).length_le (Nat.le_of_not_lt whole))
    rw [all] at apart ⊢
    exact List.splitOnP_eq_singleton apart

/-- The rounds of the loop are those over the lines, however they end. -/
theorem parseResponse_eq {suffix response : Bytes} {rounds : Nat} (enough : response.length < rounds) :
    parseResponse suffix rounds response = some ((splitLines response).findSome? (parseLine suffix)) := by
  induction rounds generalizing response with
  | zero => exact absurd enough (Nat.not_lt_zero _)
  | succ rounds ih =>
    cases response with
    | nil => rfl
    | cons byte rest =>
      rw [List.length_cons] at enough
      have shorter : ((byte :: rest).drop (((byte :: rest).takeWhile (· ≠ newline)).length + 1)).length < rounds := by
        rw [List.length_drop, List.length_cons]
        omega
      unfold parseResponse
      dsimp only
      cases parsed : parseLine suffix ((byte :: rest).takeWhile (· ≠ newline)) with
      | some count => rw [splitLines_eq, List.findSome?_cons_of_isSome (by rw [parsed]; rfl), parsed]
      | none =>
        dsimp only
        rw [ih shorter, splitLines_eq (byte :: rest), List.findSome?_cons_of_isNone (by rw [parsed]; rfl)]
        split
        next => rfl
        next whole =>
          rw [List.drop_eq_nil_of_le (by omega)]
          rfl

/-- However many rounds there are, from the length of the response on, the loop ends, and what
it returns is the count of the first line that names the suffix. -/
theorem response_counts (suffix : CStr) (whole : suffix.bytes.length = 35) (response : Bytes) :
    ∃ result, (∀ rounds, response.length < rounds → parseResponse suffix.bytes rounds response = some result) ∧
      (∀ count, result = some count ↔ FirstNames suffix.bytes response count) ∧
      ∀ field, Decimal field → Counts field (UInt64.ofNat (numeral 10 field)) := by
  refine ⟨_, fun rounds enough => parseResponse_eq enough, fun count => ?_, fun field decimal => decimal.counts⟩
  rw [List.findSome?_eq_some_iff]
  constructor
  · intro found
    obtain ⟨before, line, after, lines, parsed, missed⟩ := found
    refine ⟨before, line, after, lines, (parseLine_iff whole).mp parsed, fun other member another names => ?_⟩
    have hit := (parseLine_iff whole).mpr names
    rw [missed other member] at hit
    cases hit
  · intro first
    obtain ⟨before, line, after, lines, names, missed⟩ := first
    refine ⟨before, line, after, lines, (parseLine_iff whole).mpr names, fun other member => ?_⟩
    cases parsed : parseLine suffix.bytes other with
    | none => rfl
    | some another => exact absurd ((parseLine_iff whole).mp parsed) (missed other member another)

def sampleSuffix : CStr where
  bytes := literal "0018A45C4D1DEB81644B54AB7F969B88D65"
  clean := by decide
  short := by decide

theorem response_counts_sample : sampleSuffix.bytes.length = 35 ∧
    ∃ result, (∀ rounds, (sampleSuffix.bytes ++ literal ":3\r\n").length < rounds →
        parseResponse sampleSuffix.bytes rounds (sampleSuffix.bytes ++ literal ":3\r\n") = some result) ∧
      (∀ count, result = some count ↔ FirstNames sampleSuffix.bytes (sampleSuffix.bytes ++ literal ":3\r\n") count) ∧
      ∀ field, Decimal field → Counts field (UInt64.ofNat (numeral 10 field)) :=
  ⟨by decide, response_counts sampleSuffix (by decide) (sampleSuffix.bytes ++ literal ":3\r\n")⟩

/-- A count as the service writes it: digits, and what they write fits in a word. -/
structure Digits (field : Bytes) (count : UInt64) : Prop where
  there : field ≠ []
  digits : ∀ byte ∈ field, isDigitOf 10 byte = true
  value : numeral 10 field = count.toNat

/-- The line is the suffix in either case, a colon and a count in digits. -/
def Writes (suffix line : Bytes) (count : UInt64) : Prop :=
  ∃ front field, withoutReturn line = front ++ colon :: field ∧ sameLetters front suffix = true ∧ Digits field count

def signedLine : Bytes := sampleSuffix.bytes ++ literal ": +5"

theorem signedLine_parsed : parseResponse sampleSuffix.bytes (signedLine.length + 1) signedLine = some (some 5) := by decide

theorem signedLine_single : splitLines signedLine = [signedLine] := by
  rw [splitLines_eq, if_neg (by decide)]
  rfl

/-- The conversion passes over white space and takes a sign. -/
theorem signed_count_taken : ¬ ∀ (suffix : CStr) (response : Bytes) (count : UInt64), suffix.bytes.length = 35 →
    (parseResponse suffix.bytes (response.length + 1) response = some (some count) ↔
      ∃ before line after, splitLines response = before ++ line :: after ∧ Writes suffix.bytes line count ∧
        ∀ other ∈ before, ∀ another, ¬ Writes suffix.bytes other another) := by
  intro always
  obtain ⟨before, line, after, lines, ⟨front, field, parts, same, digits⟩, _⟩ :=
    (always sampleSuffix signedLine 5 (by decide)).mp signedLine_parsed
  have member : line ∈ splitLines signedLine := by simp [lines]
  rw [signedLine_single, List.mem_singleton] at member
  have length : front.length = 35 := sameLetters_length same
  have field_eq : field = literal " +5" := by
    have skipped : (front ++ colon :: field).drop 36 = field := by
      rw [show 36 = front.length + 1 by omega, ← List.drop_drop, List.drop_left, List.drop_succ_cons, List.drop_zero]
    rw [← skipped, ← parts, member]
    rfl
  have space := digits.digits 32 (by rw [field_eq]; decide)
  exact absurd space (by decide)

end Hiya.Pm.Hibp
