import Hiya.Proofs.RequestSurvey

/-! Requests piece by piece. A parser that leaves nothing behind has read its bytes in pieces
that the grammar knows, and it reads every piece alike wherever the piece stands. So the
pieces can be put together again with others between them. -/

namespace Hiya.Cbor
open Library

theorem leaves_length {due left : Nat} {word : Bytes} (leaves : Leaves Token due word left) : due ≤ word.length + left := by
  induction leaves with
  | nil due => exact Nat.le_add_left _ _
  | @cons head rest announced due left token others ih =>
    have some? := List.length_pos_iff.mpr (parted_token.nonempty token)
    rw [List.length_append]
    omega

/-- As many items that begin the same bytes are the same items. -/
theorem leaves_prefix {due : Nat} {first second rest more : Bytes} (one : Leaves Token due first 0)
    (two : Leaves Token due second 0)
    (joined : first ++ rest = second ++ more) : first = second := by
  have nothing {tail : Bytes} (leaves : Leaves Token 0 tail 0) : tail = [] := by
    generalize none : 0 = due at leaves
    cases leaves with
    | nil => rfl
    | cons => cases none
  obtain ⟨tail, rfl, -⟩ | ⟨tail, rfl, -⟩ := List.append_eq_append_iff.mp joined
  · rw [nothing (one.suffix parted_token two), List.append_nil]
  · rw [nothing (two.suffix parted_token one), List.append_nil]

theorem Reads.ahead {ε α : Type} {body : Proc Decoder ε α} {bytes : Bytes} {value : α} (reads : Reads body bytes value)
    (need : Nat) :
    ReadsAhead need body bytes value := fun dec rest clear here _ => reads dec rest clear here

/-- What follows a head is read alike wherever it stands, if a container finds the bytes it
insists on. -/
theorem decodeItem_ahead {head : Head} {dec last : Decoder} {item : Item} (read : decodeItem head dec = (.ok item, last)) :
    ∃ content, dec.rest = content ++ last.rest ∧ last = dec.advance content.length ∧
      ReadsAhead item.behind (decodeItem head) content item := by
  have settled {value : Item} (same : decodeItem head = pure value) : ∃ content, dec.rest = content ++ last.rest ∧
      last = dec.advance content.length ∧ ReadsAhead item.behind (decodeItem head) content item := by
    rw [same] at read ⊢
    cases read
    exact ⟨[], rfl, rfl, (Reads.pure _).ahead _⟩
  have string {make : Bytes → Item} (same : decodeItem head = decString head.argument.toNat >>=
    fun data => pure (make data)) :
      ∃ content, dec.rest = content ++ last.rest ∧
      last = dec.advance content.length ∧ ReadsAhead item.behind (decodeItem head) content item := by
    rw [same] at read ⊢
    obtain ⟨data, middle, one, two⟩ := Proc.bind_eq_ok.mp read
    cases two
    obtain ⟨content, here, moved, long⟩ := passes_decString _ _ _ _ one
    have whole := reads_decString content
    rw [long] at whole
    have given : decString head.argument.toNat dec = (.ok content, dec.advance content.length) := by
      unfold decString at one ⊢
      rw [Proc.bind_of_ok (Proc.get_apply dec)] at one ⊢
      split at one
      · cases one
      next fits =>
        rw [if_neg fits, here, ← long, List.take_left]
        rfl
    rw [given] at one
    cases one
    exact ⟨data, here, rfl, (whole.map make).ahead _⟩
  have container {count items : Nat} {make : Nat → Item}
    (same : decodeItem head = decContainer count items >>= fun found => pure (make found))
      (counted : (make count).behind = items) : ∃ content, dec.rest = content ++ last.rest ∧
      last = dec.advance content.length ∧ ReadsAhead item.behind (decodeItem head) content item := by
    rw [same] at read ⊢
    obtain ⟨found, middle, one, two⟩ := Proc.bind_eq_ok.mp read
    cases two
    obtain ⟨content, here, rfl, rfl, rfl⟩ := passes_decContainer _ _ _ _ _ one
    refine ⟨[], here, rfl, ?_⟩
    rw [counted]
    intro other rest clear there room
    rw [Proc.bind_of_ok (readsAhead_decContainer _ _ other rest clear there room)]
    rfl
  cases major : head.major with
  | bstr =>
    apply string
    unfold decodeItem
    rw [major]
  | tstr =>
    apply string
    unfold decodeItem
    rw [major]
  | array =>
    have shape : decodeItem head = decContainer head.argument.toNat head.argument.toNat >>=
      fun found => pure (.array found) := by
      unfold decodeItem
      rw [major]
    exact container shape rfl
  | map =>
    have shape : decodeItem head = decContainer head.argument.toNat (head.argument.toNat * 2) >>=
      fun found => pure (.map found) := by
      unfold decodeItem
      rw [major]
    exact container shape rfl
  | simple =>
    by_cases small : head.additional ≤ 24
    · apply settled
      unfold decodeItem
      rw [major]
      exact if_pos small
    by_cases half : head.additional = 25
    · apply settled
      unfold decodeItem
      rw [major]
      exact (if_neg small).trans (if_pos half)
    by_cases single : head.additional = 26
    · apply settled
      unfold decodeItem
      rw [major]
      exact (if_neg small).trans ((if_neg half).trans (if_pos single))
    · apply settled
      unfold decodeItem
      rw [major]
      exact (if_neg small).trans ((if_neg half).trans (if_neg single))
  | _ =>
    apply settled
    unfold decodeItem
    rw [major]

theorem advance_inj {dec : Decoder} {first second : Nat} (same : dec.advance first = dec.advance second) : first = second :=
  Nat.add_left_cancel (congrArg Decoder.offset same)

/-- An item by its head: its bytes, what is still to come of it, and that it is read alike
elsewhere. -/
theorem decodeNext_head {dec last : Decoder} {item : Item} (read : decodeNext dec = (.ok item, last))
    (clear : dec.error = false) :
    ∃ bytes, dec.rest = bytes ++ last.rest ∧ last = dec.advance bytes.length ∧ Leaves Token 1 bytes item.behind ∧
      ReadsAhead item.behind decodeNext bytes item := by
  have settled := settles_decodeNext dec clear
  unfold Proc.Ends at settled
  rw [read] at settled
  obtain ⟨bytes, here, moved, leaves⟩ := settled
  refine ⟨bytes, here, moved, leaves, ?_⟩
  rw [decodeNext_eq] at read ⊢
  obtain ⟨head, middle, one, two⟩ := Proc.bind_eq_ok.mp read
  obtain ⟨front, atFront, toMiddle, first, argument, rfl, isHead⟩ := passes_decHead _ _ _ one
  obtain ⟨content, atContent, toLast, ahead⟩ := decodeItem_ahead two
  have same : bytes = (first :: argument) ++ content := by
    rw [atContent, ← List.append_assoc] at atFront
    exact List.append_cancel_right (here.symm.trans atFront)
  rw [same]
  intro other rest fine there room
  rw [List.append_assoc] at there
  rw [Proc.bind_of_ok (reads_isHead isHead other _ fine there),
    ahead (other.advance _) rest fine (Decoder.rest_advance there) room, Decoder.advance_advance, List.length_append]

def Announces (major : Major) (head : Bytes) (count : Nat) : Prop :=
  ∃ first argument found, head = first :: argument ∧ IsHead first argument found ∧ found.major = major ∧
    found.argument.toNat = count

theorem Announces.map {head : Bytes} {count : Nat} (announces : Announces .map head count) :
    ReadsAhead (count * 2) decodeNext head (.map count) := by
  obtain ⟨first, argument, found, rfl, isHead, kind, rfl⟩ := announces
  intro dec rest clear here room
  rw [decodeNext_eq, Proc.bind_of_ok (reads_isHead isHead dec rest clear here)]
  unfold decodeItem
  rw [kind]
  dsimp only
  rw [Proc.bind_of_ok (readsAhead_decContainer _ _ (dec.advance _) rest clear (Decoder.rest_advance here) room)]
  rfl

theorem Announces.array {head : Bytes} {count : Nat} (announces : Announces .array head count) :
    ReadsAhead count decodeNext head (.array count) := by
  obtain ⟨first, argument, found, rfl, isHead, kind, rfl⟩ := announces
  intro dec rest clear here room
  rw [decodeNext_eq, Proc.bind_of_ok (reads_isHead isHead dec rest clear here)]
  unfold decodeItem
  rw [kind]
  dsimp only
  rw [Proc.bind_of_ok (readsAhead_decContainer _ _ (dec.advance _) rest clear (Decoder.rest_advance here) room)]
  rfl

end Hiya.Cbor

namespace Hiya.Fido2
open Library Cbor

structure Seat (σ : Type) where
  dec : σ → Decoder
  put : Decoder → σ → σ
  ids : σ → Nat
  dec_put : ∀ given state, dec (put given state) = given
  put_put : ∀ first second state, put second (put first state) = put second state
  put_dec : ∀ state, put (dec state) state = state
  ids_put : ∀ given state, ids (put given state) = ids state

namespace Seat

def alone (ids : Nat) : Seat Decoder where
  dec := id
  put given _ := given
  ids _ := ids
  dec_put _ _ := rfl
  put_put _ _ _ := rfl
  put_dec _ := rfl
  ids_put _ _ := rfl

def scan : Seat (Scan IdList) where
  dec := Scan.dec
  put := Scan.putDec
  ids scan := scan.list.ids.length
  dec_put _ _ := rfl
  put_put _ _ _ := rfl
  put_dec _ := rfl
  ids_put _ _ := rfl

variable {σ β : Type} (seat : Seat σ)

def look (body : Parse β) : Proc σ Status β := Proc.zoom seat.dec seat.put body

theorem look_scan (body : Parse β) : scan.look body = onDec body := rfl

variable {seat}

theorem look_eq_ok {body : Parse β} {start last : σ} {value : β} :
    seat.look body start = (.ok value, last) ↔ ∃ dec, body (seat.dec start) = (.ok value, dec) ∧
    last = seat.put dec start := by
  unfold look Proc.zoom
  rcases body (seat.dec start) with ⟨problem | found, reached⟩
  · simp
  · simp [eq_comm]

theorem look_bind {γ : Type} (first : Parse β) (next : β → Parse γ) :
    (seat.look first >>= fun value => seat.look (next value)) = seat.look (first >>= next) := by
  funext start
  have apply (body : Parse γ) (state : σ) : seat.look body state = ((body (seat.dec state)).1,
    seat.put (body (seat.dec state)).2 state) := rfl
  rw [apply]
  rcases done : first (seat.dec start) with ⟨problem | value, reached⟩
  · rw [Proc.bind_of_error done]
    have failed : seat.look first start = (.error problem, seat.put reached start) := by
      unfold look Proc.zoom
      rw [done]
    exact Proc.bind_of_error failed
  · rw [Proc.bind_of_ok done, Proc.bind_of_ok (look_eq_ok.mpr ⟨reached, done, rfl⟩), apply, seat.dec_put, seat.put_put]

end Seat

/-- What bytes grow to that are read when so many ids are stored. -/
abbrev Growth := Nat → Bytes → Bytes → Prop

def Growth.none : Growth := fun _ _ _ => False

section
variable {σ β γ : Type} (seat : Seat σ)

def Replays (body : Proc σ Status β) (start : σ) (bytes : Bytes) (value : β) (last : σ) : Prop :=
  ∀ dec rest, dec.error = false → dec.rest = bytes ++ rest →
    body (seat.put dec start) = (.ok value, seat.put (dec.advance bytes.length) last)

/-- The body has read so many items, and would have read the same from what they grow to. -/
def Consumed (size : Nat) (body : Proc σ Status β) (grows : Growth) (start : σ) (value : β) (last : σ) : Prop :=
  ∃ old, (seat.dec start).rest = old ++ (seat.dec last).rest ∧ seat.dec last = (seat.dec start).advance old.length ∧
    Leaves Cbor.Token size old 0 ∧ Replays seat body start old value last ∧ ∀ new, grows (seat.ids start) old new →
      Replays seat body start new value last

/-- A body that succeeds has moved as a pass does; if nothing is left behind, it has read
whole items. -/
def Consumes (size : Nat) (body : Proc σ Status β) (walk : Pass Unit) (grows : Growth) : Prop :=
  ∀ start value last, body start = (.ok value, last) → ∀ owed, ∃ more, owed ≤ more ∧
    walk ⟨seat.dec start, seat.ids start, owed⟩ = (.ok (), ⟨seat.dec last, seat.ids last, more⟩) ∧
      (more = owed → (seat.dec start).error = false → Consumed seat size body grows start value last)

variable {seat}

namespace Replays

protected theorem pure (value : β) (start : σ) : Replays seat (pure value) start [] value start := fun _ _ _ _ => rfl

protected theorem bind {first : Proc σ Status β} {next : β → Proc σ Status γ} {start middle last : σ}
    {head tail : Bytes} {value : β}
    {result : γ} (one : Replays seat first start head value middle)
    (two : Replays seat (next value) middle tail result last) :
    Replays seat (first >>= next) start (head ++ tail) result last := by
  intro dec rest clear here
  rw [List.append_assoc] at here
  rw [Proc.bind_of_ok (one dec _ clear here), two (dec.advance head.length) rest clear (Decoder.rest_advance here),
    Decoder.advance_advance, List.length_append]

/-- Where the decoder stood before does not matter. -/
theorem put {body : Proc σ Status β} {start last : σ} {bytes : Bytes} {value : β} {given : Decoder}
    (replays : Replays seat body (seat.put given start) bytes value last) : Replays seat body start bytes value last := by
  intro dec rest clear here
  have done := replays dec rest clear here
  rwa [seat.put_put] at done

theorem of_reads {body : Parse β} {bytes : Bytes} {value : β} (reads : Reads body bytes value) (start : σ) :
    Replays seat (seat.look body) start bytes value start := by
  intro dec rest clear here
  apply Seat.look_eq_ok.mpr
  rw [seat.dec_put]
  exact ⟨_, reads dec rest clear here, (seat.put_put _ _ _).symm⟩

/-- A container that is announced is followed by what it insists on. -/
theorem ahead {need : Nat} {body : Parse β} {next : β → Proc σ Status γ} {start last : σ} {head tail : Bytes}
    {value : β} {result : γ}
    (one : ReadsAhead need body head value) (enough : need ≤ tail.length)
    (two : Replays seat (next value) start tail result last) :
    Replays seat (seat.look body >>= next) start (head ++ tail) result last := by
  intro dec rest clear here
  rw [List.append_assoc] at here
  have room : need ≤ (tail ++ rest).length := by
    rw [List.length_append]
    omega
  have looked : seat.look body (seat.put dec start) = (.ok value, seat.put (dec.advance head.length) start) := by
    apply Seat.look_eq_ok.mpr
    rw [seat.dec_put]
    exact ⟨_, one dec _ clear here room, (seat.put_put _ _ _).symm⟩
  rw [Proc.bind_of_ok looked, two (dec.advance head.length) rest clear (Decoder.rest_advance here), Decoder.advance_advance,
    List.length_append]

end Replays

/-- A computation that looks at nothing. -/
def Settled {σ ε β : Type} (body : Proc σ ε β) : Prop := (∃ value, body = pure value) ∨ ∃ problem, body = Proc.fail problem

namespace Settled
variable {σ ε β : Type}

protected theorem pure (value : β) : Settled (pure value : Proc σ ε β) := .inl ⟨value, rfl⟩

protected theorem fail (problem : ε) : Settled (Proc.fail problem : Proc σ ε β) := .inr ⟨problem, rfl⟩

protected theorem ite {condition : Prop} [Decidable condition] {first second : Proc σ ε β} (yes : Settled first)
    (no : Settled second) :
    Settled (if condition then first else second) := by
  split
  · exact yes
  · exact no

theorem eq_pure {body : Proc σ ε β} (settled : Settled body) {start last : σ} {value : β}
    (done : body start = (.ok value, last)) :
    body = pure value ∧ last = start := by
  obtain ⟨found, rfl⟩ | ⟨problem, rfl⟩ := settled
  · cases done
    exact ⟨rfl, rfl⟩
  · cases done

end Settled

theorem consumes_settled {body : Proc σ Status β} (settled : Settled body) : Consumes seat 0 body (pure ()) .none := by
  intro start value last done owed
  obtain ⟨rfl, rfl⟩ := settled.eq_pure done
  exact ⟨owed, Nat.le_refl _, rfl, fun _ _ => ⟨[], rfl, rfl, .nil 0, .pure value _, nofun⟩⟩

/-- What is made of a value does not matter to the bytes. -/
theorem Consumes.andThen {size : Nat} {body : Proc σ Status β} {walk : Pass Unit} {grows : Growth} {next : β →
    Proc σ Status γ}
    (consumes : Consumes seat size body walk grows) (still : ∀ value, Settled (next value)) :
    Consumes seat size (body >>= next) walk grows := by
  intro start result last done owed
  obtain ⟨value, middle, one, two⟩ := Proc.bind_eq_ok.mp done
  obtain ⟨same, rfl⟩ := (still value).eq_pure two
  obtain ⟨more, less, walked, taken⟩ := consumes start value last one owed
  refine ⟨more, less, walked, fun nothing clear => ?_⟩
  obtain ⟨old, here, moved, leaves, replays, grown⟩ := taken nothing clear
  have then? {bytes : Bytes} (replays : Replays seat body start bytes value last) :
    Replays seat (body >>= next) start bytes result last := by
    have joined := replays.bind (same ▸ Replays.pure result last)
    rwa [List.append_nil] at joined
  exact ⟨old, here, moved, leaves, then? replays, fun new grows => then? (grown new grows)⟩

/-- Two parts that are read one after the other. -/
theorem Consumes.both {first second : Nat} {body : Proc σ Status β} {next : β → Proc σ Status γ} {walk others : Pass Unit}
    (consumes : Consumes seat first body walk .none) (each : ∀ value, Consumes seat second (next value) others .none) :
    Consumes seat (second + first) (body >>= next) (walk >>= fun _ => others) .none := by
  intro start result last done owed
  obtain ⟨value, middle, one, two⟩ := Proc.bind_eq_ok.mp done
  obtain ⟨more, less, moved, taken⟩ := consumes start value middle one owed
  obtain ⟨most, fewer, finished, took⟩ := each value middle result last two more
  refine ⟨most, Nat.le_trans less fewer, (Proc.bind_of_ok moved).trans finished, fun nothing clear => ?_⟩
  obtain ⟨front, atFront, toMiddle, whole, replays, -⟩ := taken (by omega) clear
  have fine : (seat.dec middle).error = false := by
    rw [toMiddle]
    exact clear
  obtain ⟨back, atBack, toLast, rest, again, -⟩ := took (by omega) fine
  refine ⟨front ++ back, ?_, ?_, ?_, replays.bind again, nofun⟩
  · rw [atFront, atBack, List.append_assoc]
  · rw [toLast, toMiddle, Decoder.advance_advance, List.length_append]
  · have begun := whole.frame second
    rw [Nat.zero_add, Nat.add_comm] at begun
    exact begun.append rest

/-- Bytes that begin with the same item and go on with what the rest may grow to. -/
def Growth.headed (grows : Item → Growth) : Growth := fun ids old new =>
  ∃ key item before after, old = key ++ before ∧ new = key ++ after ∧ Reads decodeNext key item ∧ grows item ids before after

theorem seen_of_ok {body : Decode β} {dec last : Decoder} {value : β} (read : body dec = (.ok value, last)) (ids owed : Nat) :
    seen body ⟨dec, ids, owed⟩ = (.ok value, ⟨last, ids, owed⟩) := by
  unfold seen Proc.zoom
  rw [read]
  rfl

theorem passItem_of_ok {dec last : Decoder} {item : Item} (read : decodeNext dec = (.ok item, last)) (ids owed : Nat) :
    passItem ⟨dec, ids, owed⟩ = (.ok item, ⟨last, ids, owed + item.behind⟩) := Proc.bind_of_ok (seen_of_ok read ids owed)

/-- An item that is looked at by its head, and what is read after it. -/
theorem consumes_head {size : Nat} {read : Parse γ} {as : γ → Item}
    (same : ∀ dec key last, read dec = (.ok key, last) ↔ decodeNext dec = (.ok (as key), last)) {next : γ → Proc σ Status β}
    {value : Item → Pass Unit} {grows : Item → Growth}
    (each : ∀ key, Consumes seat size (next key) (value (as key)) (grows (as key))) :
    Consumes seat (size + 1) (seat.look read >>= next) (passItem >>= value) (.headed grows) := by
  intro start result last done owed
  obtain ⟨key, middle, one, two⟩ := Proc.bind_eq_ok.mp done
  obtain ⟨dec, looked, rfl⟩ := Seat.look_eq_ok.mp one
  have decoded := (same _ _ _).mp looked
  obtain ⟨more, less, walked, taken⟩ := each key _ _ _ two (owed + (as key).behind)
  rw [seat.dec_put, seat.ids_put] at walked
  rw [Consumed, seat.dec_put, seat.ids_put] at taken
  refine ⟨more, by omega, ?_, fun nothing clear => ?_⟩
  · rw [Proc.bind_of_ok (passItem_of_ok decoded _ owed), walked]
  obtain ⟨front, atFront, rfl, begun, ahead⟩ := decodeNext_head decoded clear
  have plain : (as key).behind = 0 := by omega
  rw [plain] at begun ahead
  obtain ⟨back, atBack, moved, leaves, replays, grown⟩ := taken (by omega) clear
  have reads : Reads read front key := fun dec rest fine there => (same _ _ _).mpr (ahead dec rest fine there (Nat.zero_le _))
  refine ⟨front ++ back, ?_, ?_, ?_, (Replays.of_reads reads start).bind replays.put, ?_⟩
  · rw [atFront, atBack, List.append_assoc]
  · rw [moved, Decoder.advance_advance, List.length_append]
  · have first := begun.frame size
    rw [Nat.zero_add, Nat.add_comm] at first
    exact first.append leaves
  · rintro new ⟨bytes, item, before, after, joined, rfl, found, grows⟩
    -- the same bytes begin with the same item
    have again := found (seat.dec start) (before ++ (seat.dec last).rest) clear
      (by rw [atFront, atBack, ← List.append_assoc, joined, List.append_assoc])
    rw [decoded] at again
    obtain ⟨kind, place⟩ := Prod.mk.inj again
    cases kind
    obtain ⟨rfl, rfl⟩ := List.append_inj joined (advance_inj place)
    exact (Replays.of_reads reads start).bind (grown after grows).put

theorem nextItem_eq_ok (dec : Decoder) (item : Item) (last : Decoder) :
    nextItem dec = (.ok item, last) ↔ decodeNext dec = (.ok item, last) := Proc.orFail_eq_ok

theorem uintValue_eq_ok {dec last : Decoder} {key : UInt64} :
    uintValue dec = (.ok key, last) ↔ decodeNext dec = (.ok (.uint key), last) := by
  unfold uintValue decodeUint
  rw [Proc.orFail_eq_ok, Proc.bind_eq_ok]
  constructor
  · rintro ⟨item, reached, read, kind⟩
    cases item with
    | uint found =>
      cases kind
      exact read
    | _ => cases kind
  · exact fun read => ⟨_, _, read, rfl⟩

/-- Nothing grows behind an item that stands alone. -/
theorem Consumes.solid {size : Nat} {body : Proc σ Status β} {walk : Pass Unit} {grows : Growth}
    (consumes : Consumes seat size body walk grows)
    {fewer : Growth} (none : ∀ ids old new, fewer ids old new → grows ids old new) : Consumes seat size body walk fewer := by
  intro start value last done owed
  obtain ⟨more, less, walked, taken⟩ := consumes start value last done owed
  refine ⟨more, less, walked, fun nothing clear => ?_⟩
  obtain ⟨old, here, moved, leaves, replays, grown⟩ := taken nothing clear
  exact ⟨old, here, moved, leaves, replays, fun new grows => grown new (none _ old new grows)⟩

/-- An item that is looked at by its head, whatever is made of it. -/
theorem consumes_once {read : Parse γ} {as : γ → Item} (same : ∀ dec key last, read dec = (.ok key, last) ↔
    decodeNext dec = (.ok (as key), last))
    {next : γ → Proc σ Status β} {value : Item → Pass Unit}
    (each : ∀ key, Consumes seat 0 (next key) (value (as key)) .none) :
    Consumes seat 1 (seat.look read >>= next) (passItem >>= value) .none := by
  have consumes : Consumes seat 1 (seat.look read >>= next) (passItem >>= value) (.headed fun _ => .none) :=
    consumes_head same each
  exact consumes.solid nofun

theorem consumes_read {read : Parse γ} {as : γ → Item} (same : ∀ dec key last, read dec = (.ok key, last) ↔
    decodeNext dec = (.ok (as key), last))
    {next : γ → Proc σ Status β} (still : ∀ value, Settled (next value)) :
    Consumes seat 1 (seat.look read >>= next) Layout.item.pass .none :=
    consumes_once same fun item => consumes_settled (still item)

theorem boolValue_eq_ok (dec : Decoder) (value : Bool) (last : Decoder) :
    decodeBool.orFail Status.invalidCbor dec = (.ok value, last) ↔
      decodeNext dec = (.ok (.simple (if value then trueValue else falseValue)), last) := by
  unfold decodeBool
  rw [Proc.orFail_eq_ok, Proc.bind_eq_ok]
  constructor
  · rintro ⟨item, reached, read, kind⟩
    cases item with
    | simple found =>
      dsimp only at kind
      split at kind
      next set =>
        cases kind
        rw [read, set]
        rfl
      split at kind
      next set =>
        cases kind
        rw [read, set]
        rfl
      · cases kind
    | _ => cases kind
  · intro read
    refine ⟨_, _, read, ?_⟩
    cases value with
    | true => rfl
    | false => rfl

def flagOf : Item → Bool
  | .simple value => value = trueValue
  | _ => false

theorem withDefault_decodeBool (dec : Decoder) : (decodeBool.withDefault false : Parse Bool) dec = match decodeNext dec with
    | (.ok item, last) => (.ok (flagOf item), last)
    | (.error _, last) => (.ok false, last) := by
  unfold Proc.withDefault decodeBool
  rcases read : decodeNext dec with ⟨problem | item, last⟩
  · rw [Proc.bind_of_error read]
  · rw [Proc.bind_of_ok read]
    cases item with
    | simple value =>
      dsimp only [flagOf]
      by_cases yes : value = trueValue
      · rw [if_pos yes, decide_eq_true yes]
        rfl
      · rw [if_neg yes, decide_eq_false yes]
        by_cases no : value = falseValue
        · rw [if_pos no]
          rfl
        · rw [if_neg no]
          rfl
    | _ => rfl

/-- A parser of its own reads alike from every seat. -/
theorem Consumes.look {size : Nat} {body : Parse β} {walk : Pass Unit} {grows : Growth}
    (consumes : ∀ ids, Consumes (.alone ids) size body walk grows) :
    Consumes seat size (seat.look body) walk grows := by
  intro start value last done owed
  obtain ⟨dec, read, rfl⟩ := Seat.look_eq_ok.mp done
  obtain ⟨more, less, walked, taken⟩ := consumes (seat.ids start) _ _ _ read owed
  refine ⟨more, less, ?_, fun nothing clear => ?_⟩
  · rw [seat.dec_put, seat.ids_put]
    exact walked
  obtain ⟨old, here, moved, leaves, replays, grown⟩ := taken nothing clear
  have lifted {bytes : Bytes} (alone : Replays (.alone (seat.ids start)) body (seat.dec start) bytes value dec) :
      Replays seat (seat.look body) start bytes value (seat.put dec start) := by
    intro other rest fine there
    apply Seat.look_eq_ok.mpr
    rw [seat.dec_put, seat.put_put]
    exact ⟨_, alone other rest fine there, (seat.put_put _ _ _).symm⟩
  rw [Consumed, seat.dec_put]
  exact ⟨old, here, moved, leaves, lifted replays, fun new grows => lifted (grown new grows)⟩

end

section
variable {β : Type} {ids : Nat}

theorem consumed_of_reads {size : Nat} {body : Parse β} {dec : Decoder} {bytes rest : Bytes} {value : β}
    (reads : Reads body bytes value)
    (here : dec.rest = bytes ++ rest) (whole : Leaves Cbor.Token size bytes 0) :
    Consumed (.alone ids) size body .none dec value (dec.advance bytes.length) := by
  refine ⟨bytes, ?_, rfl, whole, reads, nofun⟩
  exact here.trans (congrArg _ (Decoder.rest_advance here).symm)

/-- An option: an item by its head that counts as false when it is none. -/
theorem consumes_flag : Consumes (.alone ids) 1 (decodeBool.withDefault false) Layout.flag.pass .none := by
  intro dec value last done owed
  rw [withDefault_decodeBool] at done
  change ∃ more, owed ≤ more ∧ attempt decodeNext Item.behind ⟨dec, ids, owed⟩ = (.ok (), ⟨last, ids, more⟩) ∧ _
  unfold attempt
  rcases read : decodeNext dec with ⟨problem | item, reached⟩
  · rw [read] at done
    cases done
    exact ⟨owed + 1, Nat.le_succ _, rfl, fun nothing => absurd nothing (Nat.succ_ne_self _)⟩
  · rw [read] at done
    cases done
    refine ⟨owed + item.behind, Nat.le_add_right _ _, rfl, fun nothing clear => ?_⟩
    obtain ⟨bytes, here, rfl, begun, ahead⟩ := decodeNext_head read clear
    have plain : item.behind = 0 := by omega
    rw [plain] at begun ahead
    refine consumed_of_reads (fun other rest fine there => ?_) here begun
    rw [withDefault_decodeBool, ahead other rest fine there (Nat.zero_le _)]

theorem consumes_skip : Consumes (.alone ids) 1 skip.ignore passSkipped .none := by
  intro dec value last done owed
  change ∃ more, owed ≤ more ∧ attempt skip (fun _ => 0) ⟨dec, ids, owed⟩ = (.ok (), ⟨last, ids, more⟩) ∧ _
  unfold attempt
  rcases read : skip dec with ⟨problem | found, reached⟩
  · have moved : last = reached := (congrArg Prod.snd done).symm.trans (congrArg Prod.snd read)
    rw [moved]
    exact ⟨owed + 1, Nat.le_succ _, rfl, fun nothing => absurd nothing (Nat.succ_ne_self _)⟩
  · have moved : last = reached := (congrArg Prod.snd done).symm.trans (congrArg Prod.snd read)
    rw [moved]
    refine ⟨owed, Nat.le_refl _, rfl, fun _ clear => ?_⟩
    obtain ⟨bytes, here, rfl, encodes⟩ := passes_skipItemDepth _ _ _ _ read
    exact consumed_of_reads (reads_skipItemDepth encodes).ignore here encodes.leaves

end

/-- How many ids are stored after a piece is passed. -/
def stored (walk : Pass Unit) (piece : Bytes) (ids : Nat) : Nat := (walk ⟨.init piece, ids, 0⟩).2.ids

/-- Pieces in order, some of them grown, and others put between them. -/
inductive Woven (walk : Pass Unit) (grows : Growth) (extra : Bytes → Prop) : Nat → List Bytes → List Bytes → Prop
  | nil (ids : Nat) : Woven walk grows extra ids [] []
  | keep {ids : Nat} {piece : Bytes} {olds news : List Bytes}
    (others : Woven walk grows extra (stored walk piece ids) olds news) :
    Woven walk grows extra ids (piece :: olds) (piece :: news)
  | grow {ids : Nat} {old new : Bytes} {olds news : List Bytes} (one : grows ids old new)
    (others : Woven walk grows extra (stored walk old ids) olds news) : Woven walk grows extra ids (old :: olds) (new :: news)
  | insert {ids : Nat} {piece : Bytes} {olds news : List Bytes} (one : extra piece)
    (others : Woven walk grows extra ids olds news) :
    Woven walk grows extra ids olds (piece :: news)

def Parts (major : Major) (size : Nat) (bytes : Bytes) (pieces : List Bytes) : Prop :=
  ∃ head, Announces major head pieces.length ∧ bytes = head ++ pieces.flatten ∧
    ∀ piece ∈ pieces, Leaves Cbor.Token size piece 0

def Growth.within (major : Major) (size : Nat) (walk : Pass Unit) (grows : Growth) (extra : Bytes → Prop) : Growth :=
    fun ids old new =>
  ∃ olds news, Parts major size old olds ∧ Parts major size new news ∧ Woven walk grows extra ids olds news

theorem length_flatten_of_leaves {size : Nat} {pieces : List Bytes}
    (whole : ∀ piece ∈ pieces, Leaves Cbor.Token size piece 0) :
    pieces.length * size ≤ pieces.flatten.length := by
  induction pieces with
  | nil => exact Nat.le_of_eq (Nat.zero_mul size)
  | cons piece pieces ih =>
    have first := leaves_length (whole piece List.mem_cons_self)
    have others := ih fun piece inside => whole piece (List.mem_cons_of_mem _ inside)
    rw [List.length_cons, List.flatten_cons, List.length_append, Nat.succ_mul]
    omega

theorem leaves_flatten {size : Nat} {pieces : List Bytes} (whole : ∀ piece ∈ pieces, Leaves Cbor.Token size piece 0) :
    Leaves Cbor.Token (pieces.length * size) pieces.flatten 0 := by
  induction pieces with
  | nil =>
    rw [List.length_nil, Nat.zero_mul]
    exact .nil 0
  | cons piece pieces ih =>
    have first := (whole piece List.mem_cons_self).frame (pieces.length * size)
    rw [Nat.zero_add, Nat.add_comm] at first
    rw [List.length_cons, Nat.succ_mul, List.flatten_cons]
    exact first.append (ih fun piece inside => whole piece (List.mem_cons_of_mem _ inside))

theorem Parts.leaves {bytes : Bytes} {pieces : List Bytes} (parts : Parts .map 2 bytes pieces) :
    Leaves Cbor.Token 1 bytes 0 := by
  obtain ⟨head, announces, rfl, whole⟩ := parts
  have read := announces.map (.init (head ++ pieces.flatten)) pieces.flatten rfl rfl (length_flatten_of_leaves whole)
  obtain ⟨found, there, place, begun, -⟩ := decodeNext_head read rfl
  have same : head = found := (List.append_inj there (advance_inj place)).1
  rw [← same] at begun
  exact begun.append (leaves_flatten whole)

theorem Woven.refl (walk : Pass Unit) (grows : Growth) (extra : Bytes → Prop) (ids : Nat) (pieces : List Bytes) :
    Woven walk grows extra ids pieces pieces := by
  induction pieces generalizing ids with
  | nil => exact .nil ids
  | cons piece pieces ih => exact .keep (ih _)

/-- Where no piece grows, it does not matter how many ids are stored. -/
theorem Woven.still {walk other : Pass Unit} {grows : Growth} {extra : Bytes → Prop} {ids count : Nat}
    {olds news : List Bytes}
    (weaves : Woven walk .none extra ids olds news) : Woven other grows extra count olds news := by
  induction weaves generalizing count with
  | nil => exact .nil count
  | keep others ih => exact .keep ih
  | grow one others ih => exact one.elim
  | insert one others ih => exact .insert one ih

/-- As many parts that begin the same bytes are the same parts. -/
theorem pieces_eq {size : Nat} {first second : List Bytes} {rest more : Bytes} (long : first.length = second.length)
    (one : ∀ piece ∈ first, Leaves Cbor.Token size piece 0) (two : ∀ piece ∈ second, Leaves Cbor.Token size piece 0)
    (joined : first.flatten ++ rest = second.flatten ++ more) : first = second := by
  induction first generalizing second with
  | nil => exact (List.length_eq_zero_iff.mp long.symm).symm
  | cons piece pieces ih =>
    cases second with
    | nil => cases long
    | cons other others =>
      rw [List.flatten_cons, List.flatten_cons, List.append_assoc, List.append_assoc] at joined
      cases leaves_prefix (one _ List.mem_cons_self) (two _ List.mem_cons_self) joined
      have same := ih (Nat.succ.inj long) (fun piece inside => one piece (List.mem_cons_of_mem _ inside))
        (fun piece inside => two piece (List.mem_cons_of_mem _ inside)) (List.append_cancel_left joined)
      rw [same]

section
variable {σ β : Type} {seat : Seat σ} {size : Nat} {body : β → Proc σ Status β} {walk : Pass Unit} {grows : Growth}
    {extra : Bytes → Prop}

/-- The pass stores as many ids over a piece of its own as the body does over it. -/
theorem stored_of_replays (each : ∀ acc, Consumes seat size (body acc) walk grows) {acc value : β} {piece : Bytes}
    {start last : σ}
    (replays : Replays seat (body acc) start piece value last) : stored walk piece (seat.ids start) = seat.ids last := by
  have done := replays (.init piece) [] rfl (List.append_nil piece).symm
  obtain ⟨more, -, walked, -⟩ := each acc _ value _ done 0
  rw [seat.dec_put, seat.ids_put, seat.ids_put] at walked
  exact congrArg (fun ended => ended.2.ids) walked

/-- What is put in before a part changes nothing. -/
theorem replays_woven_cons {piece : Bytes} {pieces woven : List Bytes} {acc middle value : β} {start reached last : σ}
    (each : ∀ acc, Consumes seat size (body acc) walk grows)
    (added : ∀ piece, extra piece → ∀ acc start, Replays seat (body acc) start piece acc start)
    (kept : Replays seat (body acc) start piece middle reached)
    (grown : ∀ new, grows (seat.ids start) piece new → Replays seat (body acc) start new middle reached)
    (others : ∀ news, Woven walk grows extra (seat.ids reached) pieces news →
      Replays seat (Proc.repeatWith news.length body middle) reached news.flatten value last)
    (weaves : Woven walk grows extra (seat.ids start) (piece :: pieces) woven) :
    Replays seat (Proc.repeatWith woven.length body acc) start woven.flatten value last := by
  generalize all : piece :: pieces = whole at weaves
  generalize count : seat.ids start = ids at weaves
  have after := stored_of_replays each kept
  induction weaves with
  | nil => cases all
  | keep rest ih =>
    cases all
    rw [← count, after] at rest
    exact kept.bind (others _ rest)
  | grow one rest ih =>
    cases all
    rw [← count] at one rest
    rw [after] at rest
    exact (grown _ one).bind (others _ rest)
  | insert one rest ih => exact (added _ one acc start).bind (ih all count)

theorem replays_woven_nil {woven : List Bytes} {acc : β} {ids : Nat} {start : σ}
    (added : ∀ piece, extra piece → ∀ acc start, Replays seat (body acc) start piece acc start)
    (weaves : Woven walk grows extra ids [] woven) :
    Replays seat (Proc.repeatWith woven.length body acc) start woven.flatten acc start := by
  generalize none : [] = whole at weaves
  induction weaves with
  | nil => exact .pure acc start
  | keep rest ih => cases none
  | grow one rest ih => cases none
  | insert one rest ih => exact (added _ one acc start).bind (ih none)

theorem consumes_rounds (each : ∀ acc, Consumes seat size (body acc) walk grows)
    (added : ∀ piece, extra piece → ∀ acc start, Replays seat (body acc) start piece acc start) (count : Nat) :
    ∀ acc start value last, Proc.repeatWith count body acc start = (.ok value, last) → ∀ owed, ∃ more, owed ≤ more ∧
      Proc.repeatWith count (fun _ => walk) () ⟨seat.dec start, seat.ids start, owed⟩ =
      (.ok (), ⟨seat.dec last, seat.ids last, more⟩) ∧
      (more = owed → (seat.dec start).error = false → ∃ pieces : List Bytes, pieces.length = count ∧
        (seat.dec start).rest = pieces.flatten ++ (seat.dec last).rest ∧
        seat.dec last = (seat.dec start).advance pieces.flatten.length ∧
        (∀ piece ∈ pieces, Leaves Cbor.Token size piece 0) ∧
        ∀ woven, Woven walk grows extra (seat.ids start) pieces woven →
        Replays seat (Proc.repeatWith woven.length body acc) start woven.flatten value last) := by
  induction count with
  | zero =>
    intro acc start value last done owed
    cases done
    exact ⟨owed, Nat.le_refl _, rfl, fun _ _ => ⟨[], rfl, rfl, rfl, nofun,
      fun woven weaves => replays_woven_nil added weaves⟩⟩
  | succ count ih =>
    intro acc start value last done owed
    obtain ⟨next, middle, one, two⟩ := Proc.bind_eq_ok.mp done
    obtain ⟨more, less, moved, taken⟩ := each acc start next middle one owed
    obtain ⟨most, fewer, finished, rounds⟩ := ih next middle value last two more
    refine ⟨most, Nat.le_trans less fewer, (Proc.bind_of_ok moved).trans finished, fun nothing clear => ?_⟩
    obtain ⟨piece, here, toMiddle, whole, kept, grown⟩ := taken (by omega) clear
    have fine : (seat.dec middle).error = false := by
      rw [toMiddle]
      exact clear
    obtain ⟨pieces, counted, there, toLast, wholes, others⟩ := rounds (by omega) fine
    refine ⟨piece :: pieces, congrArg _ counted, ?_, ?_, ?_,
      fun woven weaves => replays_woven_cons each added kept grown others weaves⟩
    · rw [here, there, List.flatten_cons, List.append_assoc]
    · rw [toLast, toMiddle, Decoder.advance_advance, List.flatten_cons, List.length_append]
    · intro part inside
      cases inside with
      | head => exact whole
      | tail _ inside => exact wholes part inside

/-- A container whose parts are read one after the other. -/
theorem consumes_within {opening : Decode Nat} {make : Nat → Item} {major : Major} {problem : Status}
    (opens : ∀ {dec last count}, opening dec = (.ok count, last) ↔ decodeNext dec = (.ok (make count), last))
    (announced : ∀ {head count}, Announces major head count → ReadsAhead (count * size) decodeNext head (make count))
    (counted : ∀ {first second}, make first = make second → first = second)
    (behind : ∀ count, (make count).behind = count * size) (each : ∀ acc, Consumes seat size (body acc) walk grows)
    (added : ∀ piece, extra piece → ∀ acc start, Replays seat (body acc) start piece acc start) (acc : β) :
    Consumes seat 1 (seat.look (opening.orFail problem) >>= fun count => Proc.repeatWith count body acc)
      (seen opening >>= fun count => Proc.repeatWith count (fun _ => walk) ()) (.within major size walk grows extra) := by
  intro start value last done owed
  obtain ⟨count, middle, one, two⟩ := Proc.bind_eq_ok.mp done
  obtain ⟨dec, looked, rfl⟩ := Seat.look_eq_ok.mp one
  have read := Proc.orFail_eq_ok.mp looked
  have decoded := opens.mp read
  obtain ⟨more, less, walked, rounds⟩ := consumes_rounds each added count acc _ _ _ two owed
  rw [seat.dec_put, seat.ids_put] at walked
  rw [seat.dec_put, seat.ids_put] at rounds
  refine ⟨more, less, (Proc.bind_of_ok (seen_of_ok read _ owed)).trans walked, fun nothing clear => ?_⟩
  obtain ⟨head, atHead, rfl, begun, ahead⟩ := decodeNext_head decoded clear
  rw [behind] at begun ahead
  obtain ⟨pieces, rfl, there, moved, whole, woven⟩ := rounds nothing clear
  have opened {head : Bytes} {count : Nat} (reads : ReadsAhead (count * size) decodeNext head (make count)) :
      ReadsAhead (count * size) (opening.orFail problem) head count := by
    intro other rest fine here room
    exact Proc.orFail_eq_ok.mpr (opens.mpr (reads other rest fine here room))
  refine ⟨head ++ pieces.flatten, ?_, ?_, begun.append (leaves_flatten whole),
    .ahead (opened ahead) (length_flatten_of_leaves whole) (woven pieces (.refl _ _ _ _ pieces)).put, ?_⟩
  · rw [atHead, there, List.append_assoc]
  · rw [moved, Decoder.advance_advance, List.length_append]
  intro new grown
  obtain ⟨olds, news, ⟨front, announces, joined, wholeOlds⟩, ⟨fresh, announcesNew, rfl, wholeNews⟩, weaves⟩ := grown
  -- the same bytes open the same container with the same parts
  have here : (seat.dec start).rest = front ++ (olds.flatten ++ (seat.dec last).rest) := by
    rw [atHead, there, ← List.append_assoc, joined, List.append_assoc]
  have room : olds.length * size ≤ (olds.flatten ++ (seat.dec last).rest).length := by
    rw [List.length_append]
    exact Nat.le_add_right_of_le (length_flatten_of_leaves wholeOlds)
  have again := announced announces (seat.dec start) _ clear here room
  rw [decoded] at again
  obtain ⟨kind, place⟩ := Prod.mk.inj again
  have long := counted (Except.ok.inj kind)
  obtain ⟨rfl, flat⟩ := List.append_inj joined (advance_inj place)
  cases pieces_eq long whole wholeOlds (congrArg (· ++ []) flat)
  exact .ahead (opened (announced announcesNew)) (length_flatten_of_leaves wholeNews) (woven news weaves).put

end

/-- What a parser does with a pair, by its key: it asks for the value, refuses the key, skips
the value, or looks at the value by its head. -/
inductive Handling
  | known
  | refused
  | skipped
  | looked
  deriving DecidableEq

/-- A pair with a key that the parser does not know. -/
def Unknown (how : Item → Handling) (piece : Bytes) : Prop :=
  ∃ key value, piece = key ++ value ∧ Leaves Cbor.Token 1 key 0 ∧ Leaves Cbor.Token 1 value 0 ∧
    ∀ item, Reads decodeNext key item → how item ≠ .known

/-- A pair that the parser passes over as a whole. Its key holds no other items; its value is
on few enough levels to be skipped, or holds none either. -/
def Passed (how : Item → Handling) (piece : Bytes) : Prop :=
  ∃ key value item, piece = key ++ value ∧ Reads decodeNext key item ∧ item.behind = 0 ∧ match how item with
    | .known => False
    | .refused => False
    | .skipped => Encodes (maxDepth + 1) value
    | .looked => ∃ found, Reads decodeNext value found ∧ found.behind = 0

/-- A pair whose key is skipped as its value is. -/
def Skipped (piece : Bytes) : Prop := ∃ key value, piece = key ++ value ∧ Encodes (maxDepth + 1) key ∧
    Encodes (maxDepth + 1) value

section
variable {σ β γ : Type} {seat : Seat σ} {how : Item → Handling}

/-- A loop whose rounds read a key and then a value leaves out the pairs that are passed
over. -/
theorem replays_passed {read : Parse γ} {as : γ → Item} (same : ∀ dec key last, read dec = (.ok key, last) ↔
    decodeNext dec = (.ok (as key), last))
    (next : γ → β → Proc σ Status β) (reached : ∀ item, how item ≠ .refused → ∃ key, item = as key)
    (skips : ∀ key, how (as key) = .skipped → ∀ acc, next key acc = seat.look (skipValue acc))
    (looks : ∀ key, how (as key) = .looked → ∀ acc bytes found, Reads decodeNext bytes found → found.behind = 0 →
      ∀ start, Replays seat (next key acc) start bytes acc start)
    {piece : Bytes} (passed : Passed how piece) (acc : β) (start : σ) :
    Replays seat (seat.look read >>= fun key => next key acc) start piece acc start := by
  obtain ⟨bytes, value, item, rfl, reads, plain, handled⟩ := passed
  have accepted : how item ≠ .refused := by
    intro kind
    rw [kind] at handled
    exact handled
  obtain ⟨key, rfl⟩ := reached item accepted
  have first : Reads read bytes key := fun dec rest fine here => (same _ _ _).mpr (reads dec rest fine here)
  refine (Replays.of_reads first start).bind ?_
  cases kind : how (as key) with
  | known =>
    rw [kind] at handled
    exact handled.elim
  | refused => exact absurd kind accepted
  | skipped =>
    rw [kind] at handled
    rw [skips key kind]
    exact .of_reads ((reads_skipItemDepth handled).ignore.andThen (.pure acc)) start
  | looked =>
    rw [kind] at handled
    obtain ⟨found, looked, single⟩ := handled
    exact looks key kind acc value found looked single start

end

/-- A map that grows in its values and by pairs of its own. -/
def Growth.map (walk : Pass Unit) (extra : Bytes → Prop) (value : Item → Growth) : Growth :=
    .within .map 2 walk (.headed value) extra

/-- A map whose values do not grow. -/
def Growth.flat (extra : Bytes → Prop) : Growth := .within .map 2 (pure ()) .none extra

def Growth.array (walk : Pass Unit) (entry : Growth) : Growth := .within .array 1 walk entry fun _ => False

def Growth.either (full : Nat → Prop) (yes no : Growth) : Growth := fun ids old new =>
  (full ids → yes ids old new) ∧ (¬ full ids → no ids old new)

section
variable {σ β : Type} {seat : Seat σ} {body : β → Proc σ Status β} {walk : Pass Unit}

theorem consumes_map {extra : Bytes → Prop} {value : Item → Growth}
    (each : ∀ acc, Consumes seat 2 (body acc) walk (.headed value))
    (added : ∀ piece, extra piece → ∀ acc start, Replays seat (body acc) start piece acc start) (acc : β) :
    Consumes seat 1 (seat.look (decodeMap.orFail .invalidCbor) >>= fun count => Proc.repeatWith count body acc)
      (seen decodeMap >>= fun count => Proc.repeatWith count (fun _ => walk) ()) (.map walk extra value) :=
  consumes_within decodeMap_eq_ok Announces.map Item.map.inj (fun _ => rfl) each added acc

theorem consumes_array {entry : Growth} (each : ∀ acc, Consumes seat 1 (body acc) walk entry) (acc : β) :
    Consumes seat 1 (seat.look (decodeArray.orFail .invalidCbor) >>= fun count => Proc.repeatWith count body acc)
      (seen decodeArray >>= fun count => Proc.repeatWith count (fun _ => walk) ()) (.array walk entry) := by
  refine consumes_within decodeArray_eq_ok (fun announces => ?_) Item.array.inj (fun count => (Nat.mul_one count).symm)
    each nofun acc
  rw [Nat.mul_one]
  exact announces.array

theorem Consumes.flat {size : Nat} {result : Proc σ Status β} {pass : Pass Unit} {extra : Bytes → Prop} {grows : Growth}
    (consumes : Consumes seat size result pass (.within .map 2 walk grows extra)) :
    Consumes seat size result pass (.flat extra) := by
  refine consumes.solid fun ids old new grown => ?_
  obtain ⟨olds, news, before, after, weaves⟩ := grown
  exact ⟨olds, news, before, after, weaves.still⟩

theorem consumes_flat {extra : Bytes → Prop} (each : ∀ acc, Consumes seat 2 (body acc) walk (.headed fun _ => .none))
    (added : ∀ piece, extra piece → ∀ acc start, Replays seat (body acc) start piece acc start) (acc : β) :
    Consumes seat 1 (seat.look (decodeMap.orFail .invalidCbor) >>= fun count => Proc.repeatWith count body acc)
      (seen decodeMap >>= fun count => Proc.repeatWith count (fun _ => walk) ()) (.flat extra) :=
      (consumes_map each added acc).flat

/-- A body that asks how many ids are stored, as the pass does. -/
theorem consumes_split (full : Nat → Prop) {size : Nat} {body yes no : Proc σ Status β}
    {walk whenYes whenNo : Pass Unit} {growsYes growsNo : Growth}
    (bodyYes : ∀ start, full (seat.ids start) → body start = yes start) (bodyNo : ∀ start, ¬ full (seat.ids start) →
    body start = no start)
    (walkYes : ∀ survey : Survey, full survey.ids → walk survey = whenYes survey)
    (walkNo : ∀ survey : Survey, ¬ full survey.ids → walk survey = whenNo survey)
    (consumesYes : Consumes seat size yes whenYes growsYes) (consumesNo : Consumes seat size no whenNo growsNo) :
    Consumes seat size body walk (.either full growsYes growsNo) := by
  have step {other : Proc σ Status β} {pass : Pass Unit} {grows : Growth}
    (consumes : Consumes seat size other pass grows) {start last : σ} {value : β}
      (case : ∀ old new, Growth.either full growsYes growsNo (seat.ids start) old new → grows (seat.ids start) old new)
      (same : ∀ given, body (seat.put given start) = other (seat.put given start)) (owed : Nat)
      (passes : walk ⟨seat.dec start, seat.ids start, owed⟩ = pass ⟨seat.dec start, seat.ids start, owed⟩)
      (done : body start = (.ok value, last)) : ∃ more, owed ≤ more ∧
        walk ⟨seat.dec start, seat.ids start, owed⟩ = (.ok (), ⟨seat.dec last, seat.ids last, more⟩) ∧
        (more = owed → (seat.dec start).error = false →
          Consumed seat size body (.either full growsYes growsNo) start value last) := by
    have here := same (seat.dec start)
    rw [seat.put_dec] at here
    rw [here] at done
    obtain ⟨more, less, walked, taken⟩ := consumes start value last done owed
    refine ⟨more, less, passes.trans walked, fun nothing clear => ?_⟩
    obtain ⟨old, atOld, moved, leaves, replays, grown⟩ := taken nothing clear
    have again {bytes : Bytes} (replays : Replays seat other start bytes value last) :
      Replays seat body start bytes value last := by
      intro dec rest fine there
      rw [same]
      exact replays dec rest fine there
    exact ⟨old, atOld, moved, leaves, again replays, fun new grows => again (grown new (case old new grows))⟩
  intro start value last done owed
  by_cases test : full (seat.ids start)
  · exact step consumesYes (fun old new grows => grows.1 test) (fun given => bodyYes _ (by rwa [seat.ids_put])) owed
      (walkYes _ test) done
  · exact step consumesNo (fun old new grows => grows.2 test) (fun given => bodyNo _ (by rwa [seat.ids_put])) owed
      (walkNo _ test) done

end

end Hiya.Fido2
