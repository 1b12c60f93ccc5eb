import Hiya.Proofs.DescriptorLists
import Hiya.Proofs.RequestPieces

/-! The maps that the request parsers read. Each parser passes over the bytes as its layout
says, so what it has read is a well-formed map exactly when the layout leaves nothing
behind. -/

namespace Hiya.Fido2
open Library Cbor

namespace Handling

def lists (listed : List String) (key : Bytes) : Bool := listed.any fun name => ascii name = key

theorem lists_iff {listed : List String} {key : Bytes} : lists listed key = true ↔ key ∈ listed.map ascii := by
  unfold lists
  rw [List.any_eq_true, List.mem_map]
  simp only [decide_eq_true_iff]

/-- Texts that are known; anything else is skipped. -/
def names (listed : List String) : Item → Handling
  | .tstr key => if lists listed key then .known else .skipped
  | _ => .skipped

def options (listed : List String) : Item → Handling
  | .tstr key => if lists listed key then .known else .looked
  | _ => .skipped

def coordinates : Item → Handling
  | .negint key => if key = -2 ∨ key = -3 then .known else .looked
  | _ => .skipped

def codes (listed : List Nat) : Item → Handling
  | .uint key => if key.toNat ∈ listed then .known else .skipped
  | _ => .refused

end Handling

abbrev Extra := (Item → Handling) → Bytes → Prop

/-- The pass over a pair of a map. -/
def Layout.pair : Layout → Pass Unit
  | map value => do
    let key ← passItem
    (value key).pass
  | _ => pure ()

namespace Growth
variable (extra : Extra) (skipped : Bytes → Prop)

def named (listed : List String) : Growth := .flat (extra (Handling.names listed))

def options (listed : List String) : Growth := .flat (extra (Handling.options listed))

def coseKey : Growth := .flat (extra Handling.coordinates)

def byCode (value : Nat → Growth) : Item → Growth
  | .uint key => value key.toNat
  | _ => .none

def uintMap (layout : Layout) (listed : List Nat) (value : Nat → Growth) : Growth :=
  .map layout.pair (extra (Handling.codes listed)) (byCode value)

/-- The keys of a descriptor that finds no room are skipped too. -/
def descriptors : Growth := .array passDescriptor (.either (· ≥ maxAllowList) (.flat skipped) (named extra ["id"]))

def makeCredential : Growth := uintMap extra .makeCredential [1, 2, 3, 4, 5, 6, 7, 8, 9] fun code => match code with
  | 2 => named extra ["id", "name"]
  | 3 => named extra ["id", "name", "displayName"]
  | 4 => .array (Layout.named ["alg", "type"]).pass (named extra ["alg", "type"])
  | 5 => descriptors extra skipped
  | 6 => named extra ["credProtect", "hmac-secret"]
  | 7 => options extra ["rk", "uv"]
  | _ => .none

def getAssertion : Growth := uintMap extra .getAssertion [1, 2, 3, 5, 6, 7] fun code => match code with
  | 3 => descriptors extra skipped
  | 5 => options extra ["uv", "up"]
  | _ => .none

def clientPin : Growth := uintMap extra .clientPin [0x01, 0x02, 0x03, 0x04, 0x05, 0x06, 0x09, 0x0A,
    0x0B] fun code => match code with
  | 0x03 => coseKey extra
  | _ => .none

end Growth

/-- A parser that succeeds has moved as a pass does. -/
def Follows {β : Type} (body : Parse β) (walk : Pass Unit) : Prop :=
  ∀ dec value last, body dec = (.ok value, last) → ∀ ids owed, ∃ more, walk ⟨dec, ids, owed⟩ = (.ok (), ⟨last, ids, more⟩)

section
variable {ε β : Type} {ids : Nat}

private theorem follows_of_consumes {size : Nat} {body : Parse β} {walk : Pass Unit} {grows : Growth}
    (consumes : ∀ ids, Consumes (.alone ids) size body walk grows) : Follows body walk := by
  intro dec value last done ids owed
  obtain ⟨more, -, walked, -⟩ := consumes ids dec value last done owed
  exact ⟨more, walked⟩

/-- An item by its head, whatever is made of it. -/
theorem consumes_item {next : Item → Parse β} (still : ∀ item, Settled (next item)) :
    Consumes (.alone ids) 1 (nextItem >>= next) Layout.item.pass .none := by
  change Consumes (.alone ids) 1 ((Seat.alone ids).look nextItem >>= next) _ _
  exact consumes_read nextItem_eq_ok still

private theorem consumes_uintValue {next : UInt64 → Parse β} (still : ∀ value, Settled (next value)) :
    Consumes (.alone ids) 1 (uintValue >>= next) Layout.item.pass .none := by
  change Consumes (.alone ids) 1 ((Seat.alone ids).look uintValue >>= next) _ _
  exact consumes_read (fun _ _ _ => uintValue_eq_ok) still

private theorem consumes_bool {next : Bool → Parse β} (still : ∀ value, Settled (next value)) :
    Consumes (.alone ids) 1 (decodeBool.orFail .invalidCbor >>= next) Layout.item.pass .none := by
  change Consumes (.alone ids) 1 ((Seat.alone ids).look (decodeBool.orFail .invalidCbor) >>= next) _ _
  exact consumes_read boolValue_eq_ok still

private theorem consumes_option {next : Bool → Parse β} (still : ∀ value, Settled (next value)) :
    Consumes (.alone ids) 1 (decodeBool.withDefault false >>= next) Layout.flag.pass .none := consumes_flag.andThen still

private theorem consumes_skipValue (acc : β) : Consumes (.alone ids) 1 (skipValue acc) Layout.skipped.pass .none :=
    consumes_skip.andThen fun _ => .pure acc

private theorem consumes_tstrValue {next : Bytes → Parse β} (still : ∀ value, Settled (next value)) :
    Consumes (.alone ids) 1 (tstrValue >>= next) Layout.item.pass .none := by
  refine Consumes.andThen (consumes_item fun item => ?_) still
  cases item with
  | tstr data => exact .pure _
  | _ => exact .fail _

private theorem consumes_bstrValue {next : Bytes → Parse β} (still : ∀ value, Settled (next value)) :
    Consumes (.alone ids) 1 (bstrValue >>= next) Layout.item.pass .none := by
  refine Consumes.andThen (consumes_item fun item => ?_) still
  cases item with
  | bstr data => exact .pure _
  | _ => exact .fail _

private theorem consumes_clientDataHash {next : Buf 32 → Parse β} (still : ∀ value, Settled (next value)) :
    Consumes (.alone ids) 1 (clientDataHashValue >>= next) Layout.item.pass .none := by
  refine Consumes.andThen (consumes_item fun item => ?_) still
  cases item with
  | bstr data =>
    dsimp only
    split
    · exact .pure _
    · exact .fail _
  | _ => exact .fail _

private theorem consumes_pinUvAuthParam {next : Blob 32 → Parse β} (still : ∀ value, Settled (next value)) :
    Consumes (.alone ids) 1 (pinUvAuthParamValue >>= next) Layout.item.pass .none := by
  refine Consumes.andThen (consumes_item fun item => ?_) still
  cases item with
  | bstr data => exact .ite (.fail _) (.pure _)
  | _ => exact .fail _

private theorem consumes_bstrOr (acc : β) (take : Bytes → β) :
    Consumes (.alone ids) 1 (bstrOr acc take) Layout.item.pass .none := by
  refine consumes_item fun item => ?_
  cases item with
  | bstr data => exact .pure _
  | _ => exact .pure _

private theorem consumes_tstrOr (acc : β) (take : Bytes → β) :
    Consumes (.alone ids) 1 (tstrOr acc take) Layout.item.pass .none := by
  refine consumes_item fun item => ?_
  cases item with
  | tstr data => exact .pure _
  | _ => exact .pure _

private theorem consumes_items {pair : Item → β → Parse β} {value : Item → Layout} {how : Item → Handling}
    (each : ∀ key acc, Consumes (.alone ids) 1 (pair key acc) (value key).pass .none)
    (skips : ∀ key, how key = .skipped → ∀ acc, pair key acc = skipValue acc)
    (looks : ∀ key, how key = .looked → ∀ acc bytes found, Reads decodeNext bytes found → found.behind = 0 →
    Reads (pair key acc) bytes acc)
    (acc : β) : Consumes (.alone ids) 1 (decodeMap.orFail .invalidCbor >>=
    fun count => Proc.repeatWith count (fun acc => nextItem >>= fun key => pair key acc) acc)
      (Layout.map value).pass (.flat (Passed how)) := by
  change Consumes (.alone ids) 1 ((Seat.alone ids).look (decodeMap.orFail .invalidCbor) >>= _) _ _
  refine consumes_flat (fun acc => ?_) (fun piece passed acc start => ?_) acc
  · change Consumes (.alone ids) 2 ((Seat.alone ids).look nextItem >>= _) _ _
    exact consumes_head nextItem_eq_ok fun key => each key acc
  · change Replays (.alone ids) ((Seat.alone ids).look nextItem >>= fun key => pair key acc) start piece acc start
    refine replays_passed nextItem_eq_ok pair (fun item _ => ⟨item, rfl⟩) skips
      (fun key kind acc bytes found reads plain start => ?_) passed acc start
    exact looks key kind acc bytes found reads plain

private theorem names_ne_looked (listed : List String) (item : Item) : Handling.names listed item ≠ .looked := by
  intro kind
  cases item with
  | tstr key =>
    dsimp only [Handling.names] at kind
    split at kind
    · cases kind
    · cases kind
  | _ => cases kind

private theorem names_eq_skipped {listed : List String} {key : Bytes} (kind : Handling.names listed (.tstr key) = .skipped) :
    key ∉ listed.map ascii := by
  intro known
  dsimp only [Handling.names] at kind
  rw [if_pos (Handling.lists_iff.mpr known)] at kind
  cases kind

/-- Fields under texts: each is listed and read, or it is skipped. -/
theorem consumes_named {field : Bytes → β → Parse β} {listed : List String}
    (each : ∀ key acc, (key ∈ listed.map ascii ∧ Consumes (.alone ids) 1 (field key acc) Layout.item.pass .none) ∨
      (key ∉ listed.map ascii ∧ field key acc = skipValue acc)) (acc : β) :
    Consumes (.alone ids) 1 (parseTextMap field acc) (Layout.named listed).pass (.named Passed listed) := by
  refine consumes_items (fun key acc => ?_) (fun key kind acc => ?_)
    (fun key kind => absurd kind (names_ne_looked listed key)) acc
  · cases key with
    | tstr key =>
      dsimp only
      obtain ⟨known, consumes⟩ | ⟨unknown, same⟩ := each key acc
      · rwa [if_pos known]
      · rw [if_neg unknown, same]
        exact consumes_skipValue acc
    | _ => exact consumes_skipValue acc
  · cases key with
    | tstr key =>
      obtain ⟨known, -⟩ | ⟨-, same⟩ := each key acc
      · exact absurd known (names_eq_skipped kind)
      · exact same
    | _ => rfl

/-- Options: what is read under a text that is not listed is dropped. -/
theorem consumes_options {next : Bytes → β → Bool → Parse β} {listed : List String}
    (still : ∀ key acc value, Settled (next key acc value))
    (drops : ∀ key acc value, key ∉ listed.map ascii → next key acc value = pure acc) (acc : β) :
    Consumes (.alone ids) 1 (parseTextMap (fun key acc => decodeBool.withDefault false >>= next key acc) acc)
    Layout.options.pass
      (.options Passed listed) := by
  refine consumes_items (fun key acc => ?_) (fun key kind acc => ?_) (fun key kind acc bytes found reads plain => ?_) acc
  · cases key with
    | tstr key => exact consumes_option (still key acc)
    | _ => exact consumes_skipValue acc
  · cases key with
    | tstr key =>
      dsimp only [Handling.options] at kind
      split at kind
      · cases kind
      · cases kind
    | _ => rfl
  · cases key with
    | tstr key =>
      dsimp only [Handling.options] at kind
      split at kind
      · cases kind
      next unknown =>
        have flag : Reads (decodeBool.withDefault false : Parse Bool) bytes (flagOf found) := by
          intro dec rest fine here
          rw [withDefault_decodeBool, reads dec rest fine here]
        refine flag.andThen ?_
        rw [drops key acc _ (mt Handling.lists_iff.mpr unknown)]
        exact .pure acc
    | _ => cases kind

private theorem codes_uint {listed : List Nat} {item : Item} (kind : Handling.codes listed item ≠ .refused) : ∃ key,
    item = .uint key := by
  cases item with
  | uint key => exact ⟨key, rfl⟩
  | _ => exact absurd rfl kind

private theorem codes_ne_looked (listed : List Nat) (key : UInt64) : Handling.codes listed (.uint key) ≠ .looked := by
  intro kind
  dsimp only [Handling.codes] at kind
  split at kind
  · cases kind
  · cases kind

private theorem codes_eq_skipped {listed : List Nat} {key : UInt64}
    (kind : Handling.codes listed (.uint key) = .skipped) : key.toNat ∉ listed := by
  intro known
  dsimp only [Handling.codes] at kind
  rw [if_pos known] at kind
  cases kind

private theorem consumes_uintMap {field : UInt64 → β → Parse β} {value : UInt64 → Layout} {listed : List Nat}
    {grows : Nat → Growth}
    (each : ∀ key acc, (key.toNat ∈ listed ∧ Consumes (.alone ids) 1 (field key acc) (value key).pass (grows key.toNat)) ∨
      (value key = .skipped ∧ grows key.toNat = .none ∧ field key acc = skipValue acc)) (acc : β) :
    Consumes (.alone ids) 1 (parseUintMap field acc)
    (Layout.uintMap value).pass (.uintMap Passed (.uintMap value) listed grows) := by
  change Consumes (.alone ids) 1 ((Seat.alone ids).look (decodeMap.orFail .invalidCbor) >>= _) _ _
  refine consumes_map (fun acc => ?_) (fun piece passed acc start => ?_) acc
  · change Consumes (.alone ids) 2 ((Seat.alone ids).look uintValue >>= _) _ _
    refine consumes_head (fun _ _ _ => uintValue_eq_ok) fun key => ?_
    obtain ⟨-, consumes⟩ | ⟨layout, none, same⟩ := each key acc
    · exact consumes
    · dsimp only [Growth.byCode]
      rw [layout, none, same]
      exact consumes_skipValue acc
  · change Replays (.alone ids) ((Seat.alone ids).look uintValue >>= fun key => field key acc) start piece acc start
    refine replays_passed (fun _ _ _ => uintValue_eq_ok) field (fun item => codes_uint) (fun key kind acc => ?_)
      (fun key kind => absurd kind (codes_ne_looked listed key)) passed acc start
    obtain ⟨known, -⟩ | ⟨-, -, same⟩ := each key acc
    · exact absurd known (codes_eq_skipped kind)
    · exact same

end

section
variable {ids : Nat}

private theorem consumes_rpEntity (crypto : Crypto) (rp : Rp) :
    Consumes (.alone ids) 1 (parseRpEntity crypto rp) (Layout.named ["id", "name"]).pass (.named Passed ["id", "name"]) := by
  refine Consumes.andThen (consumes_named (fun key rp => ?_) rp) fun _ => .pure _
  unfold rpField
  split
  next id => exact .inl ⟨by simp [id], consumes_tstrValue fun _ => .pure _⟩
  split
  next name => exact .inl ⟨by simp [name], consumes_tstrValue fun _ => .pure _⟩
  next id name => exact .inr ⟨by simp [id, name], rfl⟩

private theorem consumes_userEntity (user : User) : Consumes (.alone ids) 1 (parseUserEntity user)
    (Layout.named ["id", "name", "displayName"]).pass
    (.named Passed ["id", "name", "displayName"]) := by
  refine consumes_named (fun key user => ?_) user
  unfold userField
  split
  next id => exact .inl ⟨by simp [id], consumes_bstrValue fun _ => .pure _⟩
  split
  next name => exact .inl ⟨by simp [name], consumes_tstrValue fun _ => .pure _⟩
  split
  next shown => exact .inl ⟨by simp [shown], consumes_tstrValue fun _ => .pure _⟩
  next id name shown => exact .inr ⟨by simp [id, name, shown], rfl⟩

private theorem consumes_pubkeyParam (param : PubkeyParam) :
    Consumes (.alone ids) 1 (parseTextMap pubkeyParamField param)
    (Layout.named ["alg", "type"]).pass (.named Passed ["alg", "type"]) := by
  refine consumes_named (fun key param => ?_) param
  unfold pubkeyParamField
  split
  next alg =>
    refine .inl ⟨by simp [alg], consumes_item fun item => ?_⟩
    cases item with
    | negint value => exact .pure _
    | uint value => exact .pure _
    | _ => exact .pure _
  split
  next type =>
    refine .inl ⟨by simp [type], consumes_item fun item => ?_⟩
    cases item with
    | tstr data => exact .pure _
    | _ => exact .pure _
  next alg type => exact .inr ⟨by simp [alg, type], rfl⟩

private theorem consumes_pubKeyCredParams (supported : Bool) :
    Consumes (.alone ids) 1 (parsePubKeyCredParams supported) Layout.pubKeyCredParams.pass
    (.array (Layout.named ["alg", "type"]).pass (.named Passed ["alg", "type"])) := by
  change Consumes (.alone ids) 1 ((Seat.alone ids).look (decodeArray.orFail .invalidCbor) >>= _) _ _
  exact consumes_array (fun supported => (consumes_pubkeyParam .zero).andThen fun _ => .pure _) supported

private theorem consumes_makeCredExtensions (params : MakeCredParams) :
    Consumes (.alone ids) 1 (parseTextMap makeCredExtension params)
    (Layout.named ["credProtect", "hmac-secret"]).pass (.named Passed ["credProtect", "hmac-secret"]) := by
  refine consumes_named (fun key params => ?_) params
  unfold makeCredExtension
  split
  next level => exact .inl ⟨by simp [level], consumes_uintValue fun _ => .ite (.fail _) (.pure _)⟩
  split
  next secret => exact .inl ⟨by simp [secret], consumes_bool fun _ => .pure _⟩
  next level secret => exact .inr ⟨by simp [level, secret], rfl⟩

private theorem consumes_makeCredOptions (params : MakeCredParams) :
    Consumes (.alone ids) 1 (parseTextMap makeCredOption params) Layout.options.pass (.options Passed ["rk", "uv"]) := by
  refine consumes_options (fun _ _ _ => .ite (.pure _) (.ite (.pure _) (.pure _))) (fun key params value unknown => ?_) params
  simp only [List.map_cons, List.map_nil, List.mem_cons, List.not_mem_nil, or_false, not_or] at unknown
  rw [if_neg unknown.1, if_neg unknown.2]

private theorem consumes_getAssertionOptions (params : GetAssertionParams) :
    Consumes (.alone ids) 1 (parseTextMap getAssertionOption params) Layout.options.pass (.options Passed ["uv", "up"]) := by
  refine consumes_options (fun _ _ _ => .ite (.pure _) (.ite (.pure _) (.pure _))) (fun key params value unknown => ?_) params
  simp only [List.map_cons, List.map_nil, List.mem_cons, List.not_mem_nil, or_false, not_or] at unknown
  rw [if_neg unknown.1, if_neg unknown.2]

private theorem consumes_keyAgreement (params : ClientPinParams) :
    Consumes (.alone ids) 1 (decodeMap.orFail .invalidCbor >>=
    fun count => Proc.repeatWith count keyAgreementPair params) Layout.coseKey.pass
      (.coseKey Passed) := by
  refine consumes_items (fun key params => ?_) (fun key kind params => ?_)
    (fun key kind params bytes found reads plain => ?_) params
  · cases key with
    | negint key =>
      refine consumes_item fun item => ?_
      cases item with
      | bstr data =>
        dsimp only
        split
        · exact .ite (.pure _) (.ite (.pure _) (.pure _))
        · exact .pure _
      | _ => exact .pure _
    | _ => exact consumes_skipValue params
  · cases key with
    | negint key =>
      dsimp only [Handling.coordinates] at kind
      split at kind
      · cases kind
      · cases kind
    | _ => rfl
  · cases key with
    | negint key =>
      dsimp only [Handling.coordinates] at kind
      split at kind
      · cases kind
      next unknown =>
        obtain ⟨notX, notY⟩ := not_or.mp unknown
        refine reads.orFail.andThen ?_
        cases found with
        | bstr data =>
          simp only [if_neg notX, if_neg notY, dite_eq_ite, ite_self]
          exact .pure params
        | _ => exact .pure params
    | _ => cases kind

theorem consumes_clientPin (params : ClientPinParams) :
    Consumes (.alone ids) 1 (parseUintMap clientPinField params) Layout.clientPin.pass (.clientPin Passed) := by
  refine consumes_uintMap (fun key params => ?_) params
  unfold clientPinField
  generalize key.toNat = code
  match code with
  | 0x01 => exact .inl ⟨by decide, consumes_uintValue fun _ => .pure _⟩
  | 0x02 => exact .inl ⟨by decide, consumes_uintValue fun _ => .pure _⟩
  | 0x03 => exact .inl ⟨by decide, consumes_keyAgreement params⟩
  | 0x04 => exact .inl ⟨by decide, consumes_bstrOr params _⟩
  | 0x05 => exact .inl ⟨by decide, consumes_bstrOr params _⟩
  | 0x06 => exact .inl ⟨by decide, consumes_bstrOr params _⟩
  | 0x09 => exact .inl ⟨by decide, consumes_uintValue fun _ => .pure _⟩
  | 0x0A => exact .inl ⟨by decide, consumes_tstrOr params _⟩
  | 0x0B => exact .inl ⟨by decide, consumes_uintValue fun _ => .pure _⟩
  | 0x00 | 0x07 | 0x08 | code + 0x0C => exact .inr ⟨rfl, rfl, rfl⟩

private theorem consumes_bioEnrollSubParams (params : BioEnrollParams) :
    Consumes (.alone ids) 1 (parseUintMap bioEnrollSubParam params)
    Layout.bioEnrollSubParams.pass (.uintMap Passed .bioEnrollSubParams [0x01, 0x02, 0x03] fun _ => .none) := by
  refine consumes_uintMap (fun key params => ?_) params
  unfold bioEnrollSubParam
  generalize key.toNat = code
  match code with
  | 0x01 => exact .inl ⟨by decide, consumes_bstrOr params _⟩
  | 0x02 => exact .inl ⟨by decide, consumes_tstrOr params _⟩
  | 0x03 => exact .inl ⟨by decide, consumes_uintValue fun _ => .pure _⟩
  | 0x00 | code + 0x04 => exact .inr ⟨rfl, rfl, rfl⟩

theorem consumes_bioEnrollment (params : BioEnrollParams) : Consumes (.alone ids) 1 (parseUintMap bioEnrollField params)
    Layout.bioEnrollment.pass (.uintMap Passed .bioEnrollment [0x01, 0x02, 0x03, 0x04, 0x05, 0x06] fun _ => .none) := by
  refine consumes_uintMap (fun key params => ?_) params
  unfold bioEnrollField
  generalize key.toNat = code
  match code with
  | 0x01 => exact .inl ⟨by decide, consumes_uintValue fun _ => .pure _⟩
  | 0x02 => exact .inl ⟨by decide, consumes_uintValue fun _ => .pure _⟩
  | 0x03 => exact .inl ⟨by decide, (consumes_bioEnrollSubParams params).solid nofun⟩
  | 0x04 => exact .inl ⟨by decide, consumes_uintValue fun _ => .pure _⟩
  | 0x05 => exact .inl ⟨by decide, consumes_bstrOr params _⟩
  | 0x06 => exact .inl ⟨by decide, consumes_option fun _ => .pure _⟩
  | 0x00 | code + 0x07 => exact .inr ⟨rfl, rfl, rfl⟩

private theorem consumes_credMgmtDescriptor (params : CredMgmtParams) :
    Consumes (.alone ids) 1 (parseTextMap credMgmtDescriptor params) (Layout.named ["id"]).pass (.named Passed ["id"]) := by
  refine consumes_named (fun key params => ?_) params
  unfold credMgmtDescriptor
  split
  next id => exact .inl ⟨by simp [id], consumes_bstrOr params _⟩
  next id => exact .inr ⟨by simp [id], rfl⟩

private theorem consumes_credMgmtUser (params : CredMgmtParams) : Consumes (.alone ids) 1 (parseTextMap credMgmtUser params)
    (Layout.named ["id", "name", "displayName"]).pass (.named Passed ["id", "name", "displayName"]) := by
  refine consumes_named (fun key params => ?_) params
  unfold credMgmtUser
  split
  next id => exact .inl ⟨by simp [id], consumes_bstrOr params _⟩
  split
  next name => exact .inl ⟨by simp [name], consumes_tstrOr params _⟩
  split
  next shown => exact .inl ⟨by simp [shown], consumes_tstrOr params _⟩
  next id name shown => exact .inr ⟨by simp [id, name, shown], rfl⟩

private theorem consumes_credMgmtSubParams (params : CredMgmtParams) :
    Consumes (.alone ids) 1 (parseUintMap credMgmtSubParam params)
    Layout.credMgmtSubParams.pass (.uintMap Passed .credMgmtSubParams [0x01, 0x02, 0x03] fun _ => .none) := by
  refine consumes_uintMap (fun key params => ?_) params
  unfold credMgmtSubParam
  generalize key.toNat = code
  match code with
  | 0x01 => exact .inl ⟨by decide, consumes_bstrOr params _⟩
  | 0x02 => exact .inl ⟨by decide, (consumes_credMgmtDescriptor params).solid nofun⟩
  | 0x03 => exact .inl ⟨by decide, (consumes_credMgmtUser params).solid nofun⟩
  | 0x00 | code + 0x04 => exact .inr ⟨rfl, rfl, rfl⟩

theorem consumes_credentialManagement (params : CredMgmtParams) : Consumes (.alone ids) 1 (parseUintMap credMgmtField params)
    Layout.credentialManagement.pass (.uintMap Passed .credentialManagement [0x01, 0x02, 0x03, 0x04] fun _ => .none) := by
  refine consumes_uintMap (fun key params => ?_) params
  unfold credMgmtField
  generalize key.toNat = code
  match code with
  | 0x01 => exact .inl ⟨by decide, consumes_uintValue fun _ => .pure _⟩
  | 0x02 => exact .inl ⟨by decide, (consumes_credMgmtSubParams params).solid nofun⟩
  | 0x03 => exact .inl ⟨by decide, consumes_uintValue fun _ => .pure _⟩
  | 0x04 => exact .inl ⟨by decide, consumes_bstrOr params _⟩
  | 0x00 | code + 0x05 => exact .inr ⟨rfl, rfl, rfl⟩

end

/-- A parser that stores ids has moved and stored as a pass does. -/
def Tracks {β : Type} (body : Collect IdList β) (walk : Pass Unit) : Prop :=
  ∀ scan value last, body scan = (.ok value, last) → ∀ owed, ∃ more,
    walk ⟨scan.dec, scan.list.ids.length, owed⟩ = (.ok (), ⟨last.dec, last.list.ids.length, more⟩)

section
variable {β : Type}

private theorem tracks_of_consumes {size : Nat} {body : Collect IdList β} {walk : Pass Unit} {grows : Growth}
    (consumes : Consumes .scan size body walk grows) :
    Tracks body walk := by
  intro scan value last done owed
  obtain ⟨more, -, walked, -⟩ := consumes scan value last done owed
  exact ⟨more, walked⟩

/-- An id is stored wherever the decoder stands. -/
theorem storeId_putDec (id : CredentialId) (dec : Decoder) (scan : Scan IdList) :
    storeId idSlots id (scan.putDec dec) = ((storeId idSlots id scan).1, (storeId idSlots id scan).2.putDec dec) := by
  unfold storeId
  rw [Proc.bind_of_ok (Proc.get_apply _), Proc.bind_of_ok (Proc.get_apply _)]
  have same : (scan.putDec dec).list = scan.list := rfl
  rw [same]
  cases idSlots.store scan.list id with
  | some list => rfl
  | none => rfl

private theorem consumes_storeId (id : CredentialId) : Consumes .scan 0 (storeId idSlots id)
    (Proc.modify Survey.storeId) .none := by
  intro scan value last done owed
  have replays : Replays .scan (storeId idSlots id) scan [] value last := by
    intro dec rest fine here
    change storeId idSlots id (scan.putDec dec) = _
    rw [storeId_putDec, done]
    rfl
  by_cases room : scan.list.ids.length < maxAllowList
  · obtain ⟨list, stored, grown⟩ := storeId_room id room
    rw [stored] at done
    cases done
    refine ⟨owed, Nat.le_refl _, ?_, fun _ _ => ⟨[], rfl, rfl, .nil 0, replays, nofun⟩⟩
    change (Except.ok (), Survey.mk scan.dec (scan.list.ids.length + 1) owed) =
      (.ok (), Survey.mk scan.dec list.ids.length owed)
    rw [grown]
  · rw [storeId_full id room] at done
    cases done

private theorem consumes_onDec {size : Nat} {body : Parse β} {walk : Pass Unit} {grows : Growth}
    (consumes : ∀ ids, Consumes (.alone ids) size body walk grows) :
    Consumes .scan size (onDec body) walk grows := Consumes.look consumes

private theorem consumes_descriptorPair :
    Consumes .scan 2 (descriptorPair idSlots) passDescriptorPair (.headed fun _ => .none) := by
  change Consumes .scan 2 (Seat.scan.look nextItem >>= _) (passItem >>= _) _
  refine consumes_head nextItem_eq_ok fun key => ?_
  have skips : Consumes .scan 1 (onDec (skipValue ())) passSkipped .none := consumes_onDec fun ids => consumes_skipValue ()
  cases key with
  | tstr key =>
    dsimp only [descriptorField]
    split
    · change Consumes .scan 1 (Seat.scan.look nextItem >>= _) _ _
      refine consumes_once nextItem_eq_ok fun item => ?_
      cases item with
      | bstr data => exact consumes_storeId _
      | _ => exact consumes_settled (.pure ())
    · exact skips
  | _ => exact skips

/-- The descriptors that find no room: their pairs are skipped. -/
theorem consumes_skippedDescriptor {ids : Nat} : Consumes (.alone ids) 1 (decodeMap.orFail .invalidCbor >>= skipPairs)
    (seen decodeMap >>= fun count => Proc.repeatWith count (fun _ => do passSkipped; passSkipped) ()) (.flat Skipped) := by
  change Consumes (.alone ids) 1 ((Seat.alone ids).look (decodeMap.orFail .invalidCbor) >>= _) _ _
  refine consumes_flat (fun _ => ?_) (fun piece passed _ dec => ?_) ()
  · have both : Consumes (.alone ids) 2 (skip.ignore >>= fun _ => skip.ignore) (passSkipped >>= fun _ => passSkipped) .none :=
      Consumes.both consumes_skip fun _ => consumes_skip
    exact both.solid nofun
  · obtain ⟨key, value, rfl, first, second⟩ := passed
    exact (reads_skipItemDepth first).ignore.bind (reads_skipItemDepth second).ignore

private theorem consumes_readDescriptor :
    Consumes .scan 1 (onDec (decodeMap.orFail .invalidCbor) >>=
    fun count => Proc.repeatWith count (fun _ => descriptorPair idSlots) ())
    (seen decodeMap >>= fun count => Proc.repeatWith count (fun _ => passDescriptorPair) ()) (.named Passed ["id"]) := by
  change Consumes .scan 1 (Seat.scan.look (decodeMap.orFail .invalidCbor) >>= _) _ _
  refine consumes_flat (fun _ => consumes_descriptorPair) (fun piece passed _ scan => ?_) ()
  let field (key : Item) (_ : Unit) : Collect IdList Unit := match key with
    | .tstr key => descriptorField idSlots key
    | _ => onDec (skipValue ())
  change Replays .scan (Seat.scan.look nextItem >>= fun key => field key ()) scan piece () scan
  refine replays_passed nextItem_eq_ok field (fun item _ => ⟨item, rfl⟩) (fun key kind _ => ?_)
    (fun key kind => absurd kind (names_ne_looked _ key)) passed () scan
  cases key with
  | tstr key =>
    have unknown := names_eq_skipped kind
    rw [List.map_singleton, List.mem_singleton] at unknown
    exact if_neg unknown
  | _ => rfl

private theorem consumes_parseDescriptor : Consumes .scan 1 (parseDescriptor idSlots) passDescriptor
    (.either (· ≥ maxAllowList) (.flat Skipped) (.named Passed ["id"])) := by
  have skipped : Consumes .scan 1 (onDec (decodeMap.orFail .invalidCbor) >>= fun count => onDec (skipPairs count))
      (seen decodeMap >>= fun count => Proc.repeatWith count (fun _ => do passSkipped; passSkipped) ()) (.flat Skipped) := by
    have look : Consumes .scan 1 (onDec (decodeMap.orFail .invalidCbor >>= skipPairs)) _ _ :=
      consumes_onDec fun ids => consumes_skippedDescriptor
    rwa [← Seat.look_scan, ← Seat.look_bind] at look
  have list {count : Nat} {scan reached : Scan IdList}
    (read : onDec (decodeMap.orFail .invalidCbor) scan = (.ok count, reached)) :
      reached.list = scan.list := (congrArg (fun ended => ended.2.list) read).symm
  have stored {count : Nat} {survey reached : Survey} (read : seen decodeMap survey = (.ok count, reached)) :
      reached.ids = survey.ids := (congrArg (fun ended => ended.2.ids) read).symm
  refine consumes_split (· ≥ maxAllowList) (fun scan full => ?_) (fun scan room => ?_) (fun survey full => ?_)
    (fun survey room => ?_) skipped consumes_readDescriptor
  · refine Proc.bind_congr_at fun count reached read => ?_
    have enter : idSlots.enter scan.list = none := if_pos full
    rw [Proc.bind_of_ok (Proc.get_apply _), list read, enter]
  · refine Proc.bind_congr_at fun count reached read => ?_
    have enter : idSlots.enter scan.list = some scan.list := if_neg room
    rw [Proc.bind_of_ok (Proc.get_apply _), list read, enter, ← list read]
    rfl
  · refine Proc.bind_congr_at fun count reached read => ?_
    rw [Proc.bind_of_ok (Proc.get_apply _), stored read, if_pos full]
  · refine Proc.bind_congr_at fun count reached read => ?_
    rw [Proc.bind_of_ok (Proc.get_apply _), stored read, if_neg room]

private theorem consumes_parseDescriptors : Consumes .scan 1 (parseDescriptors idSlots) Layout.descriptors.pass
    (.descriptors Passed Skipped) := by
  change Consumes .scan 1 (Seat.scan.look (decodeArray.orFail .invalidCbor) >>= _) _ _
  exact consumes_array (fun _ => consumes_parseDescriptor) ()

/-- A request that has its descriptors under one key. -/
theorem consumes_readRequest {listKey : UInt64} {field : UInt64 → β → Parse β} {value : UInt64 → Layout}
    {listed : List Nat} {grows : Nat → Growth}
    (list : value listKey = .descriptors) (named : listKey.toNat ∈ listed)
    (entries : grows listKey.toNat = .descriptors Passed Skipped)
    (each : ∀ key acc, key ≠ listKey → (key.toNat ∈ listed ∧
    ∀ ids, Consumes (.alone ids) 1 (field key acc) (value key).pass (grows key.toNat)) ∨
      (value key = .skipped ∧ grows key.toNat = .none ∧ field key acc = skipValue acc)) (start : β) :
    Consumes .scan 1 (readRequest idSlots listKey field start)
    (Layout.uintMap value).pass (.uintMap Passed (.uintMap value) listed grows) := by
  let pair (key : UInt64) (acc : β) : Collect IdList β :=
    if key = listKey then do
      parseDescriptors idSlots
      pure acc
    else onDec (field key acc)
  change Consumes .scan 1 (Seat.scan.look (decodeMap.orFail .invalidCbor) >>= fun count =>
    Proc.repeatWith count (fun acc => Seat.scan.look uintValue >>= fun key => pair key acc) start) _ _
  refine consumes_map (fun acc => consumes_head (fun _ _ _ => uintValue_eq_ok) fun key => ?_)
    (fun piece passed acc scan => ?_) start
  · dsimp only [pair, Growth.byCode]
    split
    next same =>
      rw [same, list, entries]
      exact consumes_parseDescriptors.andThen fun _ => .pure acc
    next other =>
      obtain ⟨-, consumes⟩ | ⟨layout, none, same⟩ := each key acc other
      · exact consumes_onDec consumes
      · rw [layout, none, same]
        exact consumes_onDec fun ids => consumes_skipValue acc
  · refine replays_passed (fun _ _ _ => uintValue_eq_ok) pair (fun item => codes_uint) (fun key kind acc => ?_)
      (fun key kind => absurd kind (codes_ne_looked listed key)) passed acc scan
    have unknown := codes_eq_skipped kind
    have other : key ≠ listKey := fun same => unknown (same ▸ named)
    obtain ⟨known, -⟩ | ⟨-, -, same⟩ := each key acc other
    · exact absurd known unknown
    · dsimp only [pair]
      rw [if_neg other, same]
      rfl

end

theorem consumes_makeCredential (crypto : Crypto) :
    Consumes .scan 1 (readRequest idSlots excludeListKey (makeCredField crypto) .zero)
    Layout.makeCredential.pass (.makeCredential Passed Skipped) := by
  refine consumes_readRequest rfl (by decide) rfl (fun key params other => ?_) _
  have unlisted : key.toNat ≠ 5 := fun same => other (UInt64.toNat_inj.mp same)
  unfold makeCredField
  generalize key.toNat = code at unlisted
  match code with
  | 1 => exact .inl ⟨by decide, fun _ => consumes_clientDataHash fun _ => .pure _⟩
  | 2 => exact .inl ⟨by decide, fun _ => (consumes_rpEntity crypto _).andThen fun _ => .pure _⟩
  | 3 => exact .inl ⟨by decide, fun _ => (consumes_userEntity _).andThen fun _ => .pure _⟩
  | 4 => exact .inl ⟨by decide, fun _ => (consumes_pubKeyCredParams _).andThen fun _ => .pure _⟩
  | 5 => exact absurd rfl unlisted
  | 6 => exact .inl ⟨by decide, fun _ => consumes_makeCredExtensions params⟩
  | 7 => exact .inl ⟨by decide, fun _ => consumes_makeCredOptions params⟩
  | 8 => exact .inl ⟨by decide, fun _ => consumes_pinUvAuthParam fun _ => .pure _⟩
  | 9 => exact .inl ⟨by decide, fun _ => consumes_uintValue fun _ => .pure _⟩
  | 0 | code + 10 => exact .inr ⟨rfl, rfl, rfl⟩

theorem consumes_getAssertion (crypto : Crypto) :
    Consumes .scan 1 (readRequest idSlots allowListKey (getAssertionField crypto) .zero)
    Layout.getAssertion.pass (.getAssertion Passed Skipped) := by
  refine consumes_readRequest rfl (by decide) rfl (fun key params other => ?_) _
  have unlisted : key.toNat ≠ 3 := fun same => other (UInt64.toNat_inj.mp same)
  unfold getAssertionField
  generalize key.toNat = code at unlisted
  match code with
  | 1 => exact .inl ⟨by decide, fun _ => consumes_tstrValue fun _ => .pure _⟩
  | 2 => exact .inl ⟨by decide, fun _ => consumes_clientDataHash fun _ => .pure _⟩
  | 3 => exact absurd rfl unlisted
  | 5 => exact .inl ⟨by decide, fun _ => consumes_getAssertionOptions params⟩
  | 6 => exact .inl ⟨by decide, fun _ => consumes_pinUvAuthParam fun _ => .pure _⟩
  | 7 => exact .inl ⟨by decide, fun _ => consumes_uintValue fun _ => .pure _⟩
  | 0 | 4 | code + 8 => exact .inr ⟨rfl, rfl, rfl⟩

/-- The five parsers. -/
inductive Kind
  | makeCredential
  | getAssertion
  | clientPin
  | bioEnrollment
  | credentialManagement

namespace Kind
variable (crypto : Crypto)

def layout : Kind → Layout
  | makeCredential => .makeCredential
  | getAssertion => .getAssertion
  | clientPin => .clientPin
  | bioEnrollment => .bioEnrollment
  | credentialManagement => .credentialManagement

def accepts : Kind → Bytes → Bool
  | makeCredential, request => (parseMakeCredParams crypto request).isOk
  | getAssertion, request => (parseGetAssertionParams crypto request).isOk
  | clientPin, request => (parseClientPinParams request).isOk
  | bioEnrollment, request => (parseBioEnrollParams request).isOk
  | credentialManagement, request => (parseCredMgmtParams request).isOk

def reaches : Kind → Bytes → Decoder
  | makeCredential, request => (readRequest idSlots excludeListKey (makeCredField crypto) .zero ⟨.init request, .empty⟩).2.dec
  | getAssertion, request => (readRequest idSlots allowListKey (getAssertionField crypto) .zero ⟨.init request, .empty⟩).2.dec
  | clientPin, request => (parseUintMap clientPinField .zero (.init request)).2
  | bioEnrollment, request => (parseUintMap bioEnrollField .zero (.init request)).2
  | credentialManagement, request => (parseUintMap credMgmtField .zero (.init request)).2

end Kind

def WellFormedMap (bytes : Bytes) : Prop :=
  (∃ levels, Encodes levels bytes) ∧ ∃ first rest, bytes = first :: rest ∧ Major.ofHead first = .map

/-- If the request is accepted, what was read of it lies inside and is a map. -/
def ReadsMap (crypto : Crypto) (kind : Kind) (request : Bytes) : Prop :=
  kind.accepts crypto request = true →
    (kind.reaches crypto request).offset ≤ request.length ∧ WellFormedMap (request.take (kind.reaches crypto request).offset)

section
variable {crypto : Crypto} {kind : Kind} {request : Bytes}

/-- A parser that accepts a request has passed over its layout. -/
theorem pass_of_accepts (accepted : kind.accepts crypto request = true) : ∃ reached,
    kind.layout.pass { dec := .init request, ids := 0, owed := 0 } = (.ok (), reached) ∧
    reached.dec = kind.reaches crypto request := by
  cases kind with
  | makeCredential =>
    dsimp only [Kind.accepts, parseMakeCredParams] at accepted
    rcases done : readRequest idSlots excludeListKey (makeCredField crypto) .zero ⟨.init request,
      .empty⟩ with ⟨_ | params, scan⟩
    · rw [done] at accepted
      cases accepted
    · obtain ⟨owed, passed⟩ := tracks_of_consumes (consumes_makeCredential crypto) _ _ _ done 0
      exact ⟨_, passed, (congrArg (fun ended => ended.2.dec) done).symm⟩
  | getAssertion =>
    dsimp only [Kind.accepts, parseGetAssertionParams] at accepted
    rcases done : readRequest idSlots allowListKey (getAssertionField crypto) .zero ⟨.init request,
      .empty⟩ with ⟨_ | params, scan⟩
    · rw [done] at accepted
      cases accepted
    · obtain ⟨owed, passed⟩ := tracks_of_consumes (consumes_getAssertion crypto) _ _ _ done 0
      exact ⟨_, passed, (congrArg (fun ended => ended.2.dec) done).symm⟩
  | clientPin =>
    dsimp only [Kind.accepts, parseClientPinParams] at accepted
    rcases done : parseUintMap clientPinField .zero (.init request) with ⟨_ | params, last⟩
    · rw [done] at accepted
      cases accepted
    · obtain ⟨owed, passed⟩ := follows_of_consumes (fun _ => consumes_clientPin .zero) _ _ _ done 0 0
      exact ⟨_, passed, (congrArg Prod.snd done).symm⟩
  | bioEnrollment =>
    dsimp only [Kind.accepts, parseBioEnrollParams] at accepted
    rcases done : parseUintMap bioEnrollField .zero (.init request) with ⟨_ | params, last⟩
    · rw [done] at accepted
      cases accepted
    · obtain ⟨owed, passed⟩ := follows_of_consumes (fun _ => consumes_bioEnrollment .zero) _ _ _ done 0 0
      exact ⟨_, passed, (congrArg Prod.snd done).symm⟩
  | credentialManagement =>
    dsimp only [Kind.accepts, parseCredMgmtParams] at accepted
    rcases done : parseUintMap credMgmtField .zero (.init request) with ⟨_ | params, last⟩
    · rw [done] at accepted
      cases accepted
    · obtain ⟨owed, passed⟩ := follows_of_consumes (fun _ => consumes_credentialManagement .zero) _ _ _ done 0 0
      exact ⟨_, passed, (congrArg Prod.snd done).symm⟩

private theorem decodeMap_first {dec last : Decoder} {count : Nat} (read : decodeMap dec = (.ok count, last)) :
    ∃ first rest, dec.rest = first :: rest ∧ Major.ofHead first = .map := by
  have next := decodeMap_eq_ok.mp read
  rw [decodeNext_eq] at next
  obtain ⟨head, reached, start, item⟩ := Proc.bind_eq_ok.mp next
  obtain ⟨bytes, here, -, first, argument, rfl, isHead⟩ := passes_decHead dec head reached start
  refine ⟨first, argument ++ reached.rest, here, ?_⟩
  rw [← isHead.major]
  cases major : head.major with
  | map => rfl
  | bstr =>
    simp only [decodeItem, major] at item
    obtain ⟨_, _, -, other⟩ := Proc.bind_eq_ok.mp item
    cases other
  | tstr =>
    simp only [decodeItem, major] at item
    obtain ⟨_, _, -, other⟩ := Proc.bind_eq_ok.mp item
    cases other
  | array =>
    simp only [decodeItem, major] at item
    obtain ⟨_, _, -, other⟩ := Proc.bind_eq_ok.mp item
    cases other
  | uint =>
    simp only [decodeItem, major] at item
    cases item
  | negint =>
    simp only [decodeItem, major] at item
    cases item
  | tag =>
    simp only [decodeItem, major] at item
    cases item
  | simple =>
    simp only [decodeItem, major] at item
    split at item
    · cases item
    split at item
    · cases item
    split at item
    · cases item
    · cases item

/-- What an accepted request has been read for is a map exactly when nothing is owed. -/
theorem wellFormedMap_iff (accepted : kind.accepts crypto request = true) :
    (kind.reaches crypto request).offset ≤ request.length ∧
      (WellFormedMap (request.take (kind.reaches crypto request).offset) ↔ (kind.layout.survey request).owed = 0) := by
  obtain ⟨reached, passed, same⟩ := pass_of_accepts accepted
  obtain ⟨inside, whole⟩ := encodes_iff_owed passed
  have owed : (kind.layout.survey request).owed = reached.owed := congrArg (fun ended => ended.2.owed) passed
  rw [owed, ← same]
  refine ⟨inside, ⟨fun map => whole.mp map.1, fun nothing => ?_⟩⟩
  obtain ⟨levels, encodes⟩ := whole.mpr nothing
  obtain ⟨value, shape⟩ : ∃ value, kind.layout = .map value := by cases kind <;> exact ⟨_, rfl⟩
  rw [shape] at passed
  obtain ⟨count, middle, start, -⟩ := Proc.bind_eq_ok.mp passed
  unfold seen Proc.zoom at start
  rcases read : decodeMap (Decoder.init request) with ⟨_ | found, after⟩
  · rw [read] at start
    cases start
  · obtain ⟨first, rest, here, major⟩ := decodeMap_first read
    have here : request = first :: rest := here
    refine ⟨⟨levels, encodes⟩, ?_⟩
    have nonempty := encodes.ne_nil
    rw [here] at nonempty ⊢
    cases offset : reached.dec.offset with
    | zero =>
      rw [offset] at nonempty
      exact absurd List.take_zero nonempty
    | succ count => exact ⟨first, rest.take count, List.take_succ_cons, major⟩

end

/-- A request is read as a map that lies inside it exactly when the parser, if it accepts
the request at all, leaves no item behind. -/
theorem request_map_iff_nothing_owed (crypto : Crypto) (kind : Kind) (request : Bytes) :
    ReadsMap crypto kind request ↔ (kind.accepts crypto request = true → (kind.layout.survey request).owed = 0) := by
  constructor
  · intro reads accepted
    exact (wellFormedMap_iff accepted).2.mp (reads accepted).2
  · intro nothing accepted
    obtain ⟨inside, iff⟩ := wellFormedMap_iff accepted
    exact ⟨inside, iff.mpr (nothing accepted)⟩

/-- A request for each parser that ends in something else than an item. The array in the
request for the PIN consumes the next key with it. -/
def brokenRequest : Kind → Bytes
  | .makeCredential => [0xA5, 0x01, 0x58, 0x20] ++ List.replicate 32 0 ++ [0x02, 0xA0, 0x03, 0xA0, 0x04, 0x81, 0xA2] ++
      [0x63] ++ ascii "alg" ++ [0x26, 0x64] ++ ascii "type" ++ [0x6A] ++ ascii "public-key" ++ [0x0A, 0x1F]
  | .getAssertion =>
    [0xA3, 0x01, 0x61, 0x61, 0x02, 0x58, 0x20] ++ List.replicate 32 0 ++ [0x05, 0xA1, 0x62] ++ ascii "up" ++ [0x1F]
  | .clientPin => [0xA2, 0x04, 0x81, 0x02, 0x01]
  | .bioEnrollment => [0xA1, 0x07, 0x1F]
  | .credentialManagement => [0xA2, 0x01, 0x01, 0x05, 0x1F]

private theorem not_readsMap {crypto : Crypto} {kind : Kind} {request : Bytes} (accepted : kind.accepts crypto request = true)
    (some : (kind.layout.survey request).owed ≠ 0) : ¬ ReadsMap crypto kind request := by
  intro reads
  exact some ((wellFormedMap_iff accepted).2.mp (reads accepted).2)

/-- Every parser consumes a request that holds no well-formed map. -/
theorem broken_maps_accepted :
    ¬ ReadsMap tagCipher .makeCredential (brokenRequest .makeCredential) ∧
    ¬ ReadsMap tagCipher .getAssertion (brokenRequest .getAssertion) ∧
    ¬ ReadsMap tagCipher .clientPin (brokenRequest .clientPin) ∧
    ¬ ReadsMap tagCipher .bioEnrollment (brokenRequest .bioEnrollment) ∧
    ¬ ReadsMap tagCipher .credentialManagement (brokenRequest .credentialManagement) := by
  refine ⟨not_readsMap ?_ ?_, not_readsMap ?_ ?_, not_readsMap ?_ ?_, not_readsMap ?_ ?_, not_readsMap ?_ ?_⟩
  all_goals decide +kernel

end Hiya.Fido2
