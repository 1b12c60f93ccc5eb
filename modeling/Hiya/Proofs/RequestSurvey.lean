import Hiya.Fido2.Requests
import Hiya.Proofs.CborPrefixes

/-! How a request parser passes over the bytes of a request. It looks at some values by
their head alone and tries to skip others without asking whether that worked; `owed`
counts the items that are left behind in this way. -/

namespace Hiya.Fido2
open Library Cbor

/-- What a parser does with a value: it looks at the head of one item, tries to skip the
whole item, tries to read a Boolean, or goes through a container. -/
inductive Layout
  | item
  | skipped
  | flag
  | array (entry : Layout)
  | map (value : Item → Layout)
  | descriptors

/-- A request being passed over: the ids stored from it, and the items that were announced
or asked for and not passed over. -/
structure Survey where
  dec : Decoder
  ids : Nat
  owed : Nat

def Survey.putDec (dec : Decoder) (survey : Survey) : Survey := { survey with dec }

def Survey.owe (items : Nat) (survey : Survey) : Survey := { survey with owed := survey.owed + items }

def Survey.storeId (survey : Survey) : Survey := { survey with ids := survey.ids + 1 }

abbrev Pass := Proc Survey Error

def seen {α : Type} (body : Decode α) : Pass α := Proc.zoom Survey.dec Survey.putDec body

def passItem : Pass Item := do
  let item ← seen decodeNext
  Proc.modify (Survey.owe item.behind)
  pure item

/-- A read whose failure is not looked at: the item that was asked for is owed then. -/
def attempt {α : Type} (body : Decode α) (behind : α → Nat) : Pass Unit := fun survey =>
  match body survey.dec with
  | (.ok value, dec) => (.ok (), (survey.putDec dec).owe (behind value))
  | (.error _, dec) => (.ok (), (survey.putDec dec).owe 1)

def passSkipped : Pass Unit := attempt skip fun _ => 0

def passDescriptorPair : Pass Unit := do
  match ← passItem with
  | .tstr key =>
    if key = ascii "id" then do
      match ← passItem with
      | .bstr _ => Proc.modify Survey.storeId
      | _ => pure ()
    else passSkipped
  | _ => passSkipped

def passDescriptor : Pass Unit := do
  let count ← seen decodeMap
  let survey ← Proc.get
  if survey.ids ≥ maxAllowList then
    Proc.repeatWith count (fun _ => do
      passSkipped
      passSkipped) ()
  else Proc.repeatWith count (fun _ => passDescriptorPair) ()

def Layout.pass : Layout → Pass Unit
  | item => do
    let _ ← passItem
    pure ()
  | skipped => passSkipped
  | flag => attempt decodeNext Item.behind
  | array entry => do
    let count ← seen decodeArray
    Proc.repeatWith count (fun _ => entry.pass) ()
  | map value => do
    let count ← seen decodeMap
    Proc.repeatWith count (fun _ => do
      let key ← passItem
      (value key).pass) ()
  | descriptors => do
    let count ← seen decodeArray
    Proc.repeatWith count (fun _ => passDescriptor) ()

def Layout.survey (layout : Layout) (request : Bytes) : Survey :=
    (layout.pass { dec := .init request, ids := 0, owed := 0 }).2

namespace Layout

def uintMap (value : UInt64 → Layout) : Layout := .map fun key => match key with
  | .uint key => value key
  | _ => .skipped

def textMap (value : Bytes → Layout) : Layout := .map fun key => match key with
  | .tstr key => value key
  | _ => .skipped

/-- The texts under which an item is looked at. -/
def named (names : List String) : Layout := textMap fun key => if key ∈ names.map ascii then .item else .skipped

def pubKeyCredParams : Layout := .array (named ["alg", "type"])

def options : Layout := textMap fun _ => .flag

def coseKey : Layout := .map fun key => match key with
  | .negint _ => .item
  | _ => .skipped

def makeCredential : Layout := uintMap fun key => match key.toNat with
  | 2 => named ["id", "name"]
  | 3 => named ["id", "name", "displayName"]
  | 4 => pubKeyCredParams
  | 5 => .descriptors
  | 6 => named ["credProtect", "hmac-secret"]
  | 7 => options
  | 1 | 8 | 9 => .item
  | _ => .skipped

def getAssertion : Layout := uintMap fun key => match key.toNat with
  | 3 => .descriptors
  | 5 => options
  | 1 | 2 | 6 | 7 => .item
  | _ => .skipped

def clientPin : Layout := uintMap fun key => match key.toNat with
  | 0x03 => coseKey
  | 0x01 | 0x02 | 0x04 | 0x05 | 0x06 | 0x09 | 0x0A | 0x0B => .item
  | _ => .skipped

def bioEnrollSubParams : Layout := uintMap fun key => match key.toNat with
  | 0x01 | 0x02 | 0x03 => .item
  | _ => .skipped

def bioEnrollment : Layout := uintMap fun key => match key.toNat with
  | 0x03 => bioEnrollSubParams
  | 0x06 => .flag
  | 0x01 | 0x02 | 0x04 | 0x05 => .item
  | _ => .skipped

def credMgmtSubParams : Layout := uintMap fun key => match key.toNat with
  | 0x01 => .item
  | 0x02 => named ["id"]
  | 0x03 => named ["id", "name", "displayName"]
  | _ => .skipped

def credentialManagement : Layout := uintMap fun key => match key.toNat with
  | 0x02 => credMgmtSubParams
  | 0x01 | 0x03 | 0x04 => .item
  | _ => .skipped

end Layout

def bytesRead (dec : Decoder) : Bytes := dec.data.take dec.offset

/-- Where `due` items are still to be passed over, the bytes read leave these and the ones
that are owed. After a failed read they break off, and nothing more is read. -/
structure Balance (request : Bytes) (due : Nat) (survey : Survey) : Prop where
  data : survey.dec.data = request
  inside : survey.dec.offset ≤ survey.dec.data.length
  going : survey.dec.error = false → Leaves Token 1 (bytesRead survey.dec) (due + survey.owed)
  stopped : survey.dec.error = true → 0 < survey.owed ∧ Halts Token 1 (bytesRead survey.dec)

def Sticks {α : Type} (body : Decode α) : Prop := ∀ dec, dec.error = true → body dec = (.error .invalid, dec)

theorem sticks_bind {α β : Type} {first : Decode α} (sticks : Sticks first) (next : α → Decode β) : Sticks (first >>= next) :=
  fun dec failed => Proc.bind_of_error (sticks dec failed)

theorem sticks_decRead (count : Nat) : Sticks (decRead count) := by
  intro dec failed
  unfold decRead
  rw [Proc.bind_of_ok (Proc.get_apply dec), if_pos failed]
  rfl

theorem sticks_decodeNext : Sticks decodeNext := sticks_bind (sticks_bind (sticks_decRead 1) _) _

theorem sticks_skip : Sticks skip := sticks_bind sticks_decodeNext _

theorem bytesRead_advance {dec : Decoder} {bytes rest : Bytes} (here : dec.rest = bytes ++ rest) :
    bytesRead (dec.advance bytes.length) = bytesRead dec ++ bytes := by
  have taken : dec.rest.take bytes.length = bytes := by rw [here, List.take_left]
  unfold bytesRead Decoder.advance
  rw [List.take_add]
  exact congrArg _ taken

theorem inside_advance {dec last : Decoder} {bytes : Bytes} (inside : dec.offset ≤ dec.data.length)
    (here : dec.rest = bytes ++ last.rest) (data : last.data = dec.data) (moved : last.offset = dec.offset + bytes.length) :
    last.offset ≤ last.data.length := by
  have lengths := congrArg List.length here
  rw [List.length_append, Decoder.rest, Decoder.rest, List.length_drop, List.length_drop, data, moved] at lengths
  rw [data, moved]
  omega

namespace Balance
variable {α : Type} {body : Decode α} {request : Bytes} {due rest : Nat} {left : α → Nat} {survey : Survey} {last : Decoder}

theorem reads (balance : Balance request (rest + due) survey) (settles : Settles body due left) (sticks : Sticks body)
    {value : α}
    (done : body survey.dec = (.ok value, last)) : Balance request (rest + left value) (survey.putDec last) := by
  cases failed : survey.dec.error with
  | true =>
    rw [sticks _ failed] at done
    cases done
  | false =>
    have ends := settles survey.dec failed
    unfold Proc.Ends at ends
    rw [done] at ends
    obtain ⟨bytes, here, rfl, leaves⟩ := ends
    have before := balance.going failed
    have after := leaves.frame (rest + survey.owed)
    refine ⟨balance.data, inside_advance balance.inside here rfl rfl, fun _ => ?_,
      fun wrong => absurd (wrong.symm.trans failed) nofun⟩
    change Leaves Token 1 (bytesRead (survey.dec.advance bytes.length)) _
    rw [bytesRead_advance here]
    have joined : due + (rest + survey.owed) = rest + due + survey.owed := by omega
    have remaining : left value + (rest + survey.owed) = rest + left value + survey.owed := by omega
    rw [joined, remaining] at after
    exact before.append after

theorem misses (balance : Balance request (rest + due) survey) (settles : Settles body due left) (sticks : Sticks body)
    {problem : Error}
    (failure : body survey.dec = (.error problem, last)) : Balance request rest ((survey.putDec last).owe 1) := by
  cases failed : survey.dec.error with
  | true =>
    rw [sticks _ failed] at failure
    cases failure
    exact ⟨balance.data, balance.inside, fun wrong => absurd (wrong.symm.trans failed) nofun,
      fun _ => ⟨Nat.succ_pos _, (balance.stopped failed).2⟩⟩
  | false =>
    have ends := settles survey.dec failed
    unfold Proc.Ends at ends
    rw [failure] at ends
    obtain ⟨bytes, here, rfl, halts⟩ := ends
    have before := balance.going failed
    have after := halts.frame (rest + survey.owed)
    refine ⟨balance.data, inside_advance balance.inside here rfl rfl, nofun, fun _ => ⟨Nat.succ_pos _, ?_⟩⟩
    change Halts Token 1 (bytesRead (survey.dec.advance bytes.length))
    rw [bytesRead_advance here]
    have joined : due + (rest + survey.owed) = rest + due + survey.owed := by omega
    rw [joined] at after
    exact .after before after

theorem owes {items : Nat} (balance : Balance request (rest + items) survey) : Balance request rest (survey.owe items) := by
  refine ⟨balance.data, balance.inside, fun clear => ?_, fun failed => ?_⟩
  · have before := balance.going clear
    rwa [Nat.add_assoc, Nat.add_comm items] at before
  · obtain ⟨some, halts⟩ := balance.stopped failed
    exact ⟨Nat.lt_add_right items some, halts⟩

end Balance

/-- A pass that succeeds keeps the balance: it takes `due` items and leaves some. -/
def Balances {α : Type} (body : Pass α) (due : Nat) (left : α → Nat) : Prop :=
  ∀ request rest start value reached, Balance request (rest + due) start → body start = (.ok value, reached) →
    Balance request (rest + left value) reached

namespace Balances
variable {α β : Type} {due : Nat}

protected theorem pure {left : α → Nat} {value : α} (same : left value = due) : Balances (pure value) due left := by
  intro request rest start found reached balance done
  cases done
  rwa [same]

protected theorem bind {first : Pass α} {next : α → Pass β} {middle : α → Nat} {left : β → Nat}
    (start : Balances first due middle)
    (continues : ∀ value, Balances (next value) (middle value) left) : Balances (first >>= next) due left := by
  intro request rest before result after balance done
  obtain ⟨value, reached, one, two⟩ := Proc.bind_eq_ok.mp done
  exact continues value request rest reached result after (start request rest before value reached balance one) two

protected theorem get {next : Survey → Pass α} {left : α → Nat} (continues : ∀ survey, Balances (next survey) due left) :
    Balances (Proc.get >>= next) due left := fun request rest start => continues start request rest start

protected theorem repeatWith {body : α → Pass α} (each : ∀ acc, Balances (body acc) due fun _ => 0) (count : Nat) :
    ∀ acc, Balances (Proc.repeatWith count body acc) (count * due) fun _ => 0 := by
  induction count with
  | zero =>
    intro acc
    exact .pure (Nat.zero_mul due).symm
  | succ count ih =>
    intro acc request rest before result after balance done
    obtain ⟨value, reached, one, two⟩ := Proc.bind_eq_ok.mp done
    rw [Nat.succ_mul, ← Nat.add_assoc] at balance
    exact ih value request rest reached result after (each acc request _ before value reached balance one) two

end Balances

theorem balances_seen {α : Type} {body : Decode α} {due : Nat} {left : α → Nat} (settles : Settles body due left)
    (sticks : Sticks body) :
    Balances (seen body) due left := by
  intro request rest start value reached balance done
  unfold seen Proc.zoom at done
  cases read : body start.dec with
  | mk outcome last =>
    rw [read] at done
    cases done
    exact balance.reads settles sticks read

theorem balances_passItem : Balances passItem 1 fun _ => 0 := by
  refine (balances_seen settles_decodeNext sticks_decodeNext).bind fun item => ?_
  intro request rest start value reached balance done
  cases done
  exact balance.owes

theorem balances_attempt {α : Type} {body : Decode α} {behind : α → Nat} (settles : Settles body 1 behind)
    (sticks : Sticks body) :
    Balances (attempt body behind) 1 fun _ => 0 := by
  intro request rest start value reached balance done
  unfold attempt at done
  cases read : body start.dec with
  | mk outcome last =>
    rw [read] at done
    cases outcome with
    | ok found =>
      cases done
      exact (balance.reads settles sticks read).owes
    | error problem =>
      cases done
      exact balance.misses settles sticks read

theorem balances_passSkipped : Balances passSkipped 1 fun _ => 0 := balances_attempt settles_skip sticks_skip

theorem decodeArray_eq_ok {dec last : Decoder} {count : Nat} :
    decodeArray dec = (.ok count, last) ↔ decodeNext dec = (.ok (.array count), last) := by
  unfold decodeArray
  rw [Proc.bind_eq_ok]
  constructor
  · rintro ⟨item, reached, read, kind⟩
    cases item with
    | array found =>
      cases kind
      exact read
    | _ => cases kind
  · exact fun read => ⟨_, _, read, rfl⟩

theorem decodeMap_eq_ok {dec last : Decoder} {count : Nat} :
    decodeMap dec = (.ok count, last) ↔ decodeNext dec = (.ok (.map count), last) := by
  unfold decodeMap
  rw [Proc.bind_eq_ok]
  constructor
  · rintro ⟨item, reached, read, kind⟩
    cases item with
    | map found =>
      cases kind
      exact read
    | _ => cases kind
  · exact fun read => ⟨_, _, read, rfl⟩

theorem balances_decodeArray : Balances (seen decodeArray) 1 fun count => count := by
  intro request rest start count reached balance done
  unfold seen Proc.zoom at done
  cases read : decodeArray start.dec with
  | mk outcome last =>
    rw [read] at done
    cases done
    exact balance.reads settles_decodeNext sticks_decodeNext (decodeArray_eq_ok.mp read)

theorem balances_decodeMap : Balances (seen decodeMap) 1 fun count => count * 2 := by
  intro request rest start count reached balance done
  unfold seen Proc.zoom at done
  cases read : decodeMap start.dec with
  | mk outcome last =>
    rw [read] at done
    cases done
    exact balance.reads settles_decodeNext sticks_decodeNext (decodeMap_eq_ok.mp read)

theorem Balances.frame {α : Type} {body : Pass α} {due : Nat} {left : α → Nat} (balances : Balances body due left)
    (more : Nat) :
    Balances body (due + more) fun value => left value + more := by
  intro request rest start value reached balance done
  have kept := balances request (rest + more) start value reached
  rw [Nat.add_right_comm, Nat.add_assoc, Nat.add_right_comm, Nat.add_assoc] at kept
  exact kept balance done

theorem balances_pair {value : Item → Pass Unit} (each : ∀ key, Balances (value key) 1 fun _ => 0) :
    Balances (passItem >>= value) 2 fun _ => 0 := (balances_passItem.frame 1).bind each

theorem balances_passDescriptor : Balances passDescriptor 1 fun _ => 0 := by
  refine balances_decodeMap.bind fun count => .get fun survey => ?_
  have skips : Balances (passSkipped >>= fun _ => passSkipped) 2 fun _ => 0 :=
    (balances_passSkipped.frame 1).bind fun _ => balances_passSkipped
  have reads : Balances passDescriptorPair 2 fun _ => 0 := by
    refine balances_pair fun key => ?_
    cases key with
    | tstr key =>
      dsimp only
      split
      · refine balances_passItem.bind fun item => ?_
        cases item with
        | bstr data =>
          intro request rest start value reached balance done
          cases done
          exact ⟨balance.data, balance.inside, balance.going, balance.stopped⟩
        | _ => exact .pure rfl
      · exact balances_passSkipped
    | _ => exact balances_passSkipped
  split
  · exact .repeatWith (fun _ => skips) count ()
  · exact .repeatWith (fun _ => reads) count ()

theorem balances_array {entry : Pass Unit} (each : Balances entry 1 fun _ => 0) :
    Balances (seen decodeArray >>= fun count => Proc.repeatWith count (fun _ => entry) ()) 1 fun _ => 0 := by
  refine balances_decodeArray.bind fun count => ?_
  have entries := Balances.repeatWith (fun _ : Unit => each) count ()
  rwa [Nat.mul_one] at entries

theorem balances_pass (layout : Layout) : Balances layout.pass 1 fun _ => 0 := by
  induction layout with
  | item => exact balances_passItem.bind fun _ => .pure rfl
  | skipped => exact balances_passSkipped
  | flag => exact balances_attempt settles_decodeNext sticks_decodeNext
  | array entry ih => exact balances_array ih
  | map value ih => exact balances_decodeMap.bind fun count => .repeatWith (fun _ => balances_pair ih) count ()
  | descriptors => exact balances_array balances_passDescriptor

theorem balance_init (request : Bytes) : Balance request 1 { dec := .init request, ids := 0, owed := 0 } :=
  ⟨rfl, Nat.zero_le _, fun _ => .nil 1, nofun⟩

/-- The bytes that were passed over are an item exactly when nothing is owed. -/
theorem encodes_iff_owed {layout : Layout} {request : Bytes} {reached : Survey}
    (passed : layout.pass { dec := .init request, ids := 0, owed := 0 } = (.ok (), reached)) :
    reached.dec.offset ≤ request.length ∧ ((∃ levels, Encodes levels (request.take reached.dec.offset)) ↔
      reached.owed = 0) := by
  have balance := balances_pass layout request 0 _ () reached (balance_init request) passed
  have shown : bytesRead reached.dec = request.take reached.dec.offset := by rw [bytesRead, balance.data]
  refine ⟨balance.data ▸ balance.inside, ?_⟩
  rw [encodes_iff_leaves, ← shown]
  cases failed : reached.dec.error with
  | true =>
    obtain ⟨some, halts⟩ := balance.stopped failed
    exact iff_of_false (halts.incomplete parted_token) (Nat.ne_of_gt some)
  | false =>
    have leaves := balance.going failed
    rw [Nat.zero_add, Nat.zero_add] at leaves
    constructor
    · exact fun complete => leaves.unique parted_token complete
    · intro nothing
      rwa [nothing] at leaves

end Hiya.Fido2
