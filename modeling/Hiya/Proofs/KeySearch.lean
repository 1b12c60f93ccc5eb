import Hiya.Proofs.MapOrder

/-! The search for a key in a map. It takes one head for a key and passes over one item for
a value, so after a key of several heads it is out of step with the pairs. -/

namespace Hiya.Cbor
open Library

/-- A key to look for, with either function. -/
inductive Sought
  | uint (key : UInt64)
  | tstr (key : Bytes)

namespace Sought

def isKey : Sought → Item → Bool
  | uint key => isUintKey key
  | tstr key => isTstrKey key

def find : Sought → Nat → Decode Bool
  | uint key, count => mapFindUintKey count key
  | tstr key, count => mapFindTstrKey count key

/-- Whether a head with what follows it is the key. -/
def Fits (sought : Sought) (head : Head) (content : Bytes) : Prop :=
  match sought with
  | uint key => head.major = .uint ∧ head.argument = key ∧ content = []
  | tstr key => head.major = .tstr ∧ head.argument.toNat = content.length ∧ content = key

def Shows (sought : Sought) (item : Bytes) : Prop :=
  ∃ first argument content head, item = first :: (argument ++ content) ∧ IsHead first argument head ∧ sought.Fits head content

theorem find_eq (sought : Sought) (count : Nat) : sought.find count = mapFindKey sought.isKey count := by
  cases sought with
  | uint key => rfl
  | tstr key => rfl

theorem shows_iff (sought : Sought) {first : UInt8} {argument content : Bytes} {head : Head}
    (isHead : IsHead first argument head) :
    sought.Shows (first :: (argument ++ content)) ↔ sought.Fits head content := by
  constructor
  · intro shows
    obtain ⟨byte, other, text, found, same, isOther, fits⟩ := shows
    obtain ⟨rfl, tails⟩ := List.cons.inj same
    obtain ⟨rfl, rfl, rfl⟩ := isHead.unique isOther tails
    exact fits
  · exact fun fits => ⟨first, argument, content, head, rfl, isHead, fits⟩

end Sought

/-- What a head is read as: the value, the string that goes with it and the items behind. -/
structure Opened (levels : Nat) (head : Head) (content : Bytes) (value : Item) (text inner : Bytes) : Prop where
  parts : content = text ++ inner
  string : text.length = head.extent
  inner : Series (Encodes levels) head.behind inner
  reads : ∀ dec rest, dec.error = false → dec.rest = content ++ rest →
    decodeItem head dec = (.ok value, dec.advance text.length)
  keyed : ∀ sought : Sought, sought.isKey value = true ↔ sought.Fits head content

theorem decContainer_roomy {count items : Nat} {dec : Decoder} {content rest : Bytes} (few : items ≤ content.length)
    (here : dec.rest = content ++ rest) : decContainer count items dec = (.ok count, dec) := by
  have room : ¬ items > dec.remaining := by
    rw [Decoder.remaining_eq, here, List.length_append]
    omega
  unfold decContainer
  rw [Proc.bind_of_ok (Proc.get_apply dec), if_neg room]
  rfl

theorem Sought.fits_not {sought : Sought} {head : Head} {content : Bytes} (number : head.major ≠ .uint)
    (text : head.major ≠ .tstr) :
    ¬ sought.Fits head content := by
  cases sought with
  | uint key => exact fun fits => number fits.1
  | tstr key => exact fun fits => text fits.1

section
variable {levels : Nat} {head : Head} {content : Bytes} {value : Item}

theorem opened_plain (none : head.extent = 0) (inner : Series (Encodes levels) head.behind content)
    (read : decodeItem head = pure value)
    (keyed : ∀ sought : Sought, sought.isKey value = true ↔ sought.Fits head content) :
    Opened levels head content value [] content where
  parts := rfl
  string := none.symm
  inner := inner
  reads dec rest clear here := by
    rw [read]
    rfl
  keyed := keyed

theorem opened_string {make : Bytes → Item} (none : head.behind = 0) (string : content.length = head.extent)
    (read : decodeItem head = decString head.extent >>= fun data => pure (make data))
    (keyed : ∀ sought : Sought, sought.isKey (make content) = true ↔ sought.Fits head content) :
    Opened levels head content (make content) content [] where
  parts := (List.append_nil _).symm
  string := string
  inner := by
    rw [none]
    exact series_nil _
  reads dec rest clear here := by
    rw [read, ← string]
    exact Proc.bind_of_ok (reads_decString content dec rest clear here)
  keyed := keyed

theorem opened_container {make : Nat → Item} {count : Nat} (none : head.extent = 0)
    (inner : Series (Encodes levels) head.behind content)
    (read : decodeItem head = decContainer count head.behind >>= fun count => pure (make count))
    (keyed : ∀ sought : Sought, sought.isKey (make count) = true ↔ sought.Fits head content) :
    Opened levels head content (make count) [] content where
  parts := rfl
  string := none.symm
  inner := inner
  reads dec rest clear here := by
    rw [read]
    exact Proc.bind_of_ok (decContainer_roomy inner.count_le here)
  keyed := keyed

/-- No key is read from a head of another type. -/
theorem keyed_other {major : Major} (same : head.major = major) (number : major ≠ .uint) (text : major ≠ .tstr)
    (other : ∀ sought : Sought, sought.isKey value = false) (sought : Sought) : sought.isKey value = true ↔
    sought.Fits head content := by
  subst same
  rw [other]
  exact ⟨nofun, fun fits => absurd fits (Sought.fits_not number text)⟩

theorem opened_content (inside : Content (Encodes levels) head content) : ∃ value text inner,
    Opened levels head content value text inner := by
  have plain := @opened_plain levels head content
  have string := @opened_string levels head content
  have container := @opened_container levels head content
  unfold Content at inside
  unfold Head.extent Head.behind decodeItem at plain string container
  cases major : head.major with
  | uint =>
    simp only [major] at inside plain
    subst inside
    refine ⟨_, _, _, plain trivial (series_nil _) rfl fun sought => ?_⟩
    cases sought with
    | uint key => simp [Sought.isKey, Sought.Fits, isUintKey, major]
    | tstr key => simp [Sought.isKey, Sought.Fits, isTstrKey, major]
  | tstr =>
    simp only [major] at inside string
    refine ⟨_, _, _, string trivial inside rfl fun sought => ?_⟩
    cases sought with
    | uint key => simp [Sought.isKey, Sought.Fits, isUintKey, major]
    | tstr key =>
      simp only [Sought.isKey, Sought.Fits, isTstrKey, major, Bool.and_eq_true, decide_eq_true_eq]
      exact ⟨fun same => ⟨trivial, inside.symm, same.2⟩, fun fits => ⟨congrArg List.length fits.2.2, fits.2.2⟩⟩
  | negint =>
    simp only [major] at inside plain
    subst inside
    exact ⟨_, _, _, plain trivial (series_nil _) rfl (keyed_other major nofun nofun fun sought => by cases sought <;> rfl)⟩
  | bstr =>
    simp only [major] at inside string
    exact ⟨_, _, _, string trivial inside rfl (keyed_other major nofun nofun fun sought => by cases sought <;> rfl)⟩
  | array =>
    simp only [major] at inside container
    exact ⟨_, _, _, container trivial inside rfl (keyed_other major nofun nofun fun sought => by cases sought <;> rfl)⟩
  | map =>
    simp only [major] at inside container
    exact ⟨_, _, _, container trivial inside rfl (keyed_other major nofun nofun fun sought => by cases sought <;> rfl)⟩
  | tag =>
    simp only [major] at inside plain
    have one : Series (Encodes levels) 1 content := by
      have alone := Series.cons inside (series_nil _)
      rwa [List.append_nil] at alone
    exact ⟨_, _, _, plain trivial one rfl (keyed_other major nofun nofun fun sought => by cases sought <;> rfl)⟩
  | simple =>
    simp only [major] at inside plain
    subst inside
    by_cases small : head.additional ≤ 24
    · exact ⟨_, _, _, plain trivial (series_nil _) (if_pos small)
        (keyed_other major nofun nofun fun sought => by cases sought <;> rfl)⟩
    by_cases half : head.additional = 25
    · exact ⟨_, _, _, plain trivial (series_nil _) ((if_neg small).trans (if_pos half))
        (keyed_other major nofun nofun fun sought => by cases sought <;> rfl)⟩
    by_cases single : head.additional = 26
    · exact ⟨_, _, _, plain trivial (series_nil _) ((if_neg small).trans ((if_neg half).trans (if_pos single)))
        (keyed_other major nofun nofun fun sought => by cases sought <;> rfl)⟩
    · exact ⟨_, _, _, plain trivial (series_nil _) ((if_neg small).trans ((if_neg half).trans (if_neg single)))
        (keyed_other major nofun nofun fun sought => by cases sought <;> rfl)⟩

end

theorem Sought.Fits.whole {sought : Sought} {head : Head} {content : Bytes} (fits : sought.Fits head content) :
    head.behind = 0 ∧ content.length = head.extent := by
  unfold Head.behind Head.extent
  cases sought with
  | uint key =>
    obtain ⟨major, -, rfl⟩ := fits
    rw [major]
    exact ⟨rfl, rfl⟩
  | tstr key =>
    obtain ⟨major, long, -⟩ := fits
    rw [major]
    exact ⟨rfl, long.symm⟩

structure Peeled (levels : Nat) (item token inner : Bytes) (behind : Nat) (value : Item) : Prop where
  parts : item = token ++ inner
  isToken : Token token behind
  inner : Series (Encodes levels) behind inner
  reads : ∀ dec rest, dec.error = false → dec.rest = item ++ rest → decodeNext dec = (.ok value, dec.advance token.length)
  isKey : ∀ sought : Sought, sought.isKey value = true → sought.Shows item ∧ token = item
  noKey : ∀ sought : Sought, sought.isKey value ≠ true → ¬ sought.Shows token

theorem Encodes.peel {levels : Nat} {item : Bytes} (encodes : Encodes (levels + 1) item) :
    ∃ token inner behind value, Peeled levels item token inner behind value := by
  obtain ⟨first, argument, content, head, rfl, isHead, inside⟩ := encodes
  obtain ⟨value, text, inner, rfl, string, series, reads, keyed⟩ := opened_content inside
  refine ⟨first :: (argument ++ text), inner, head.behind, value, ?_,
    ⟨first, argument, text, head, rfl, isHead, string, rfl⟩, series, ?_, ?_, ?_⟩
  · rw [List.cons_append, List.append_assoc]
  · intro dec rest clear here
    rw [List.cons_append, List.append_assoc, ← List.cons_append] at here
    rw [decodeNext_eq, Proc.bind_of_ok (reads_isHead isHead dec _ clear here),
      reads (dec.advance (first :: argument).length) rest clear (Decoder.rest_advance here), Decoder.advance_advance,
        ← List.cons_append,
      List.length_append]
  · intro sought isKey
    have fits := (keyed sought).mp isKey
    obtain ⟨none, whole⟩ := fits.whole
    have same : inner = [] := by
      rw [List.length_append] at whole
      exact List.length_eq_zero_iff.mp (by omega)
    rw [same, List.append_nil] at fits ⊢
    exact ⟨(sought.shows_iff isHead).mpr fits, rfl⟩
  · intro sought noKey shows
    have fits := (sought.shows_iff isHead).mp shows
    rw [fits.whole.1] at series
    obtain ⟨pieces, none, rfl, -⟩ := series
    apply noKey
    rw [List.length_eq_zero_iff.mp none, List.flatten_nil, List.append_nil] at keyed
    exact (keyed sought).mpr fits

/-- To go through a body by a head and an item at a time, as often as there are rounds:
what stands behind the first head that shows the key, or nothing. -/
inductive Strides (sought : Sought) : Nat → Bytes → Option Bytes → Prop
  | done (body : Bytes) : Strides sought 0 body none
  | met {rounds : Nat} {key behind : Bytes} (shows : sought.Shows key) : Strides sought (rounds + 1) (key ++ behind)
    (some behind)
  | on {rounds announced : Nat} {token item rest : Bytes} {result : Option Bytes} (head : Token token announced)
    (other : ¬ sought.Shows token) (whole : Leaves Token 1 item 0) (later : Strides sought rounds rest result) :
    Strides sought (rounds + 1) (token ++ (item ++ rest)) result

theorem Sought.Shows.token {sought : Sought} {key : Bytes} (shows : sought.Shows key) : Token key 0 := by
  obtain ⟨first, argument, content, head, rfl, isHead, fits⟩ := shows
  exact ⟨first, argument, content, head, rfl, isHead, fits.whole.2, fits.whole.1.symm⟩

theorem Strides.unique {sought : Sought} {rounds : Nat} {body : Bytes} {first second : Option Bytes}
    (one : Strides sought rounds body first) (two : Strides sought rounds body second) : first = second := by
  induction one generalizing second with
  | done body =>
    cases two
    rfl
  | @met rounds key behind shows =>
    generalize same : key ++ behind = body at two
    cases two with
    | met shows' =>
      obtain ⟨rfl, -⟩ := parted_token.unique shows.token shows'.token same
      rw [List.append_cancel_left same]
    | on head other whole later =>
      obtain ⟨rfl, -⟩ := parted_token.unique shows.token head same
      exact absurd shows other
  | @on rounds announced token item rest result head other whole later ih =>
    generalize same : token ++ (item ++ rest) = body at two
    cases two with
    | met shows =>
      obtain ⟨rfl, -⟩ := parted_token.unique head shows.token same
      exact absurd shows other
    | on head' other' whole' later' =>
      obtain ⟨rfl, -⟩ := parted_token.unique head head' same
      obtain ⟨rfl, rfl⟩ := whole.same_front parted_token whole' (List.append_cancel_left same)
      exact ih later'

def Scans (body : Bytes) (result : Option Bytes) (scan : Decode Bool) : Prop :=
  ∀ dec rest, dec.error = false → dec.rest = body ++ rest →
    ∃ passed behind, body = passed ++ behind ∧ scan dec = (.ok result.isSome, dec.advance passed.length) ∧
      ∀ tail ∈ result, behind = tail

theorem Series.append {part : Bytes → Prop} {front back : Nat} {first second : Bytes} (one : Series part front first)
    (two : Series part back second) : Series part (front + back) (first ++ second) := by
  obtain ⟨pieces, rfl, rfl, each⟩ := one
  obtain ⟨others, rfl, rfl, fine⟩ := two
  refine ⟨pieces ++ others, List.length_append, List.flatten_append.symm, ?_⟩
  intro piece inside
  exact (List.mem_append.mp inside).elim (each piece) (fine piece)

/-- In a body with two items for every round the walk never comes to the end. -/
theorem scanKeys_strides (sought : Sought) (rounds : Nat) {count : Nat} {body : Bytes}
    (series : Series (Encodes (maxDepth + 1)) count body) (enough : rounds * 2 ≤ count) :
    ∃ result, Strides sought rounds body result ∧ Scans body result (scanKeys sought.isKey rounds) := by
  induction rounds generalizing count body with
  | zero =>
    refine ⟨none, .done body, fun dec rest clear here => ⟨[], body, rfl, rfl, ?_⟩⟩
    exact fun tail missing => by cases missing
  | succ rounds ih =>
    obtain ⟨more, rfl⟩ : ∃ more, count = more + 1 := ⟨count - 1, by omega⟩
    obtain ⟨item, others, rfl, encodes, later⟩ := series_succ series
    obtain ⟨token, inner, announced, value, rfl, isToken, inside, reads, isKey, noKey⟩ := encodes.peel
    by_cases key : sought.isKey value = true
    · obtain ⟨shows, same⟩ := isKey sought key
      refine ⟨some others, .met shows, fun dec rest clear here => ⟨token ++ inner, others, rfl, ?_, ?_⟩⟩
      · rw [List.append_assoc] at here
        unfold scanKeys
        rw [Proc.bind_of_ok (reads dec _ clear here), if_pos key, ← same]
        rfl
      · exact fun tail held => Option.some.inj held
    · have next := (inside.mono fun _ => Encodes.succ).append later
      obtain ⟨left, counted⟩ : ∃ left, announced + more = left + 1 := ⟨announced + more - 1, by omega⟩
      rw [counted] at next
      obtain ⟨skipped, remaining, split, whole, after⟩ := series_succ next
      obtain ⟨result, strides, scans⟩ := ih after (by omega)
      have body : token ++ inner ++ others = token ++ (skipped ++ remaining) := by rw [List.append_assoc, split]
      rw [body]
      refine ⟨result, .on isToken (noKey sought key) whole.leaves strides, fun dec rest clear here => ?_⟩
      rw [← body, List.append_assoc] at here
      have head := reads dec _ clear here
      rw [← List.append_assoc, body, List.append_assoc] at here
      have there := Decoder.rest_advance here
      rw [List.append_assoc] at there
      have skips : skip (dec.advance token.length) = (.ok (), (dec.advance token.length).advance skipped.length) :=
        reads_skipItemDepth whole _ _ clear there
      have after := Decoder.rest_advance there
      obtain ⟨passed, behind, rfl, scanned, held⟩ :=
        scans ((dec.advance token.length).advance skipped.length) rest clear after
      refine ⟨token ++ (skipped ++ passed), behind, by simp only [List.append_assoc], ?_, held⟩
      unfold scanKeys
      rw [Proc.bind_of_ok head, if_neg key]
      change (skip >>= fun _ => scanKeys sought.isKey rounds) (dec.advance token.length) = _
      rw [Proc.bind_of_ok skips, scanned, Decoder.advance_advance, Decoder.advance_advance, List.length_append,
        List.length_append]

/-- The decoder is at the value of the first pair with the key, or where it was. -/
structure FindsFirst (sought : Sought) (pairs : List (Bytes × Bytes)) (dec : Decoder)
    (outcome : Except Error Bool × Decoder) :
    Prop where
  found : ∀ before key value after, pairs = before ++ (key, value) :: after →
    (∀ pair ∈ before, ¬ sought.Shows pair.1) → sought.Shows key →
    outcome = (.ok true, dec.advance (mapBody before ++ key).length)
  missing : (∀ pair ∈ pairs, ¬ sought.Shows pair.1) → outcome = (.ok false, dec)

/-- The walk meets the key in the first pair that has it, and nowhere if none has. -/
structure InStep (sought : Sought) (pairs : List (Bytes × Bytes)) : Prop where
  found : ∀ before key value after, pairs = before ++ (key, value) :: after →
    (∀ pair ∈ before, ¬ sought.Shows pair.1) → sought.Shows key →
    Strides sought pairs.length (mapBody pairs) (some (value ++ mapBody after))
  missing : (∀ pair ∈ pairs, ¬ sought.Shows pair.1) → Strides sought pairs.length (mapBody pairs) none

theorem mapBody_append (first second : List (Bytes × Bytes)) : mapBody (first ++ second) = mapBody first ++ mapBody second :=
  List.flatMap_append

theorem series_mapBody {part : Bytes → Prop} {pairs : List (Bytes × Bytes)} (items : ∀ pair ∈ pairs, part pair.1 ∧
    part pair.2) :
    Series part (pairs.length * 2) (mapBody pairs) := by
  induction pairs with
  | nil => exact series_nil part
  | cons pair pairs ih =>
    obtain ⟨key, value⟩ := items pair List.mem_cons_self
    have later := ih fun other inside => items other (List.mem_cons_of_mem _ inside)
    rw [mapBody_cons, List.length_cons, Nat.succ_mul]
    exact .cons key (.cons value later)

/-- Up to the first pair with the key, no key is a tag or a container that holds an item. -/
def PlainKeys (sought : Sought) (pairs : List (Bytes × Bytes)) : Prop :=
  ∀ before pair after, pairs = before ++ pair :: after → (∀ other ∈ before, ¬ sought.Shows other.1) → Token pair.1 0

theorem inStep_cons {sought : Sought} {key value : Bytes} {pairs : List (Bytes × Bytes)} (head : Token key 0)
    (whole : Leaves Token 1 value 0) (later : ¬ sought.Shows key → InStep sought pairs) :
    InStep sought ((key, value) :: pairs) := by
  by_cases shows : sought.Shows key
  · constructor
    · intro before first value' after parts none _
      cases before with
      | nil =>
        cases parts
        rw [mapBody_cons]
        exact .met shows
      | cons pair before =>
        obtain ⟨rfl, -⟩ := List.cons.inj parts
        exact absurd shows (none _ List.mem_cons_self)
    · exact fun none => absurd shows (none _ List.mem_cons_self)
  · have inStep := later shows
    rw [show (key, value) :: pairs = [(key, value)] ++ pairs from rfl]
    constructor
    · intro before first value' after parts none found
      cases before with
      | nil =>
        cases parts
        exact absurd found shows
      | cons pair before =>
        obtain ⟨-, parts⟩ := List.cons.inj parts
        have behind := inStep.found before first value' after parts
          (fun other inside => none other (List.mem_cons_of_mem _ inside)) found
        rw [List.singleton_append, mapBody_cons]
        exact .on head shows whole behind
    · intro none
      have behind := inStep.missing fun other inside => none other (List.mem_cons_of_mem _ inside)
      rw [List.singleton_append, mapBody_cons]
      exact .on head shows whole behind

theorem PlainKeys.inStep {sought : Sought} {pairs : List (Bytes × Bytes)} (plain : PlainKeys sought pairs)
    (values : ∀ pair ∈ pairs, Leaves Token 1 pair.2 0) : InStep sought pairs := by
  induction pairs with
  | nil =>
    constructor
    · intro before key value after parts
      cases before <;> cases parts
    · exact fun _ => .done []
  | cons pair pairs ih =>
    apply inStep_cons (plain [] pair pairs rfl fun other inside => absurd inside List.not_mem_nil)
      (values pair List.mem_cons_self)
    intro other
    apply ih
    · intro before next after parts none
      apply plain (pair :: before) next after (by rw [parts]; rfl)
      intro earlier inside
      rcases List.mem_cons.mp inside with rfl | inside
      · exact other
      · exact none earlier inside
    · exact fun pair inside => values pair (List.mem_cons_of_mem _ inside)

theorem find_scanned {sought : Sought} {rounds : Nat} {body rest : Bytes} {result : Option Bytes}
    (scans : Scans body result (scanKeys sought.isKey rounds)) {dec : Decoder} (clear : dec.error = false)
    (here : dec.rest = body ++ rest) :
    (result = none → sought.find rounds dec = (.ok false, dec)) ∧
      ∀ tail, result = some tail → ∃ passed, body = passed ++ tail ∧
      sought.find rounds dec = (.ok true, dec.advance passed.length) := by
  obtain ⟨passed, behind, split, scanned, held⟩ := scans dec rest clear here
  rw [Sought.find_eq]
  unfold mapFindKey
  rw [Proc.bind_of_ok (Proc.get_apply dec), Proc.bind_of_ok scanned]
  constructor
  · rintro rfl
    rfl
  · rintro tail rfl
    rw [← held tail rfl]
    exact ⟨passed, split, rfl⟩

theorem find_key_iff (sought : Sought) (pairs : List (Bytes × Bytes))
    (items : ∀ pair ∈ pairs, Encodes (maxDepth + 1) pair.1 ∧ Encodes (maxDepth + 1) pair.2) (dec : Decoder)
    (clear : dec.error = false)
    (rest : Bytes) (here : dec.rest = mapBody pairs ++ rest) :
    (FindsFirst sought pairs dec (sought.find pairs.length dec) ↔ InStep sought pairs) ∧
    (PlainKeys sought pairs → InStep sought pairs) := by
  refine ⟨?_, fun plain => plain.inStep fun pair inside => (items pair inside).2.leaves⟩
  obtain ⟨result, strides, scans⟩ := scanKeys_strides sought pairs.length (series_mapBody items) (Nat.le_refl _)
  obtain ⟨ended, stopped⟩ := find_scanned scans clear here
  constructor
  · intro finds
    refine ⟨fun before key value after parts none shows => ?_, fun none => ?_⟩
    · have done := finds.found before key value after parts none shows
      cases result with
      | none =>
        rw [ended rfl] at done
        cases done
      | some tail =>
        obtain ⟨passed, split, met⟩ := stopped tail rfl
        have long := congrArg (fun outcome => outcome.2.offset) (met.symm.trans done)
        have whole : mapBody pairs = (mapBody before ++ key) ++ (value ++ mapBody after) := by
          rw [parts, mapBody_append, mapBody_cons, List.append_assoc]
        have same : passed.length = (mapBody before ++ key).length := Nat.add_left_cancel long
        rw [← (List.append_inj (split.symm.trans whole) same).2]
        exact strides
    · have done := finds.missing none
      cases result with
      | none => exact strides
      | some tail =>
        obtain ⟨passed, -, met⟩ := stopped tail rfl
        rw [met] at done
        cases done
  · intro inStep
    refine ⟨fun before key value after parts none shows => ?_, fun none => ended (strides.unique (inStep.missing none))⟩
    obtain ⟨passed, split, met⟩ := stopped _ (strides.unique (inStep.found before key value after parts none shows))
    have whole : mapBody pairs = (mapBody before ++ key) ++ (value ++ mapBody after) := by
      rw [parts, mapBody_append, mapBody_cons, List.append_assoc]
    rw [met, List.append_cancel_right (split.symm.trans whole)]

theorem encodes_small (levels : Nat) {first : UInt8} (small : Major.ofHead first = .uint) (short : first &&& 0x1F ≤ 23) :
    Encodes (levels + 1) [first] := by
  refine ⟨first, [], [], ⟨.uint, first &&& 0x1F, (first &&& 0x1F).toUInt64⟩, rfl, ⟨small.symm, rfl, ?_, ?_⟩, rfl⟩
  · exact if_pos short
  · rw [if_pos short]
    exact UInt8.toNat_toUInt64 _

theorem find_key_iff_second :
    (FindsFirst (.uint 3) [([0x01], [0x02]), ([0x03], [0x04])] (Decoder.init [0x01, 0x02, 0x03, 0x04])
      ((Sought.uint 3).find 2 (Decoder.init [0x01, 0x02, 0x03, 0x04])) ↔
      InStep (.uint 3) [([0x01], [0x02]), ([0x03], [0x04])]) ∧
    (PlainKeys (.uint 3) [([0x01], [0x02]), ([0x03], [0x04])] → InStep (.uint 3) [([0x01], [0x02]), ([0x03], [0x04])]) := by
  apply find_key_iff (.uint 3) [([0x01], [0x02]), ([0x03], [0x04])] _ (Decoder.init [0x01, 0x02, 0x03, 0x04]) rfl [] rfl
  intro pair inside
  rcases List.mem_cons.mp inside with rfl | inside
  · exact ⟨encodes_small _ rfl (by decide), encodes_small _ rfl (by decide)⟩
  · obtain rfl := List.mem_singleton.mp inside
    exact ⟨encodes_small _ rfl (by decide), encodes_small _ rfl (by decide)⟩

def arrayKeyPairs : List (Bytes × Bytes) := [([0x81, 0x01], [0x02]), ([0x03], [0x04])]

theorem array_key_misleads :
    ¬ ∀ (sought : Sought) (pairs : List (Bytes × Bytes)),
      (∀ pair ∈ pairs, Encodes (maxDepth + 1) pair.1 ∧ Encodes (maxDepth + 1) pair.2) →
      ∀ dec : Decoder, dec.error = false → ∀ rest, dec.rest = mapBody pairs ++ rest →
        FindsFirst sought pairs dec (sought.find pairs.length dec) := by
  intro claimed
  have isHead : IsHead 0x81 [] ⟨.array, 1, 1⟩ := ⟨rfl, rfl, rfl, rfl⟩
  have items : ∀ pair ∈ arrayKeyPairs, Encodes (maxDepth + 1) pair.1 ∧ Encodes (maxDepth + 1) pair.2 := by
    intro pair inside
    rcases List.mem_cons.mp inside with rfl | inside
    · have one : Series (Encodes maxDepth) 1 [0x01] := .cons (encodes_small _ rfl (by decide)) (series_nil _)
      exact ⟨⟨0x81, [], [0x01], _, rfl, isHead, one⟩, encodes_small _ rfl (by decide)⟩
    · obtain rfl := List.mem_singleton.mp inside
      exact ⟨encodes_small _ rfl (by decide), encodes_small _ rfl (by decide)⟩
  have finds := claimed (.uint 3) arrayKeyPairs items (Decoder.init [0x81, 0x01, 0x02, 0x03, 0x04]) rfl [] rfl
  have other : ∀ pair ∈ [(([0x81, 0x01], [0x02]) : Bytes × Bytes)], ¬ (Sought.uint 3).Shows pair.1 := by
    intro pair inside shows
    obtain rfl := List.mem_singleton.mp inside
    have fits : (Sought.uint 3).Fits ⟨.array, 1, 1⟩ [0x01] := (Sought.shows_iff _ isHead).mp shows
    cases fits.1
  have found := finds.found [([0x81, 0x01], [0x02])] [0x03] [0x04] [] rfl other
    ⟨0x03, [], [], ⟨.uint, 3, 3⟩, rfl, ⟨rfl, rfl, rfl, rfl⟩, rfl, rfl, rfl⟩
  cases found

end Hiya.Cbor
