import Hiya.Proofs.CborPrefixes
import Hiya.Proofs.CborTrees
import Hiya.Proofs.Enumerations
import Hiya.Proofs.SshEnrollment

/-! The shape of the responses. A count is announced before the items it counts are
written, and nothing checks afterwards that they were as many; so each list of calls is
compared with those that write a whole value. -/

namespace Hiya.Cbor
open Library

namespace Tree

mutual

/-- The calls that write a value. -/
def calls : Tree → List (Encode Unit)
  | .uint value => [encodeUint value]
  | .negint value => [encodeNegint value]
  | .bstr data => [encodeBstr data]
  | .tstr data => [encodeTstr data]
  | .array items => encodeArray items.length :: callsAll items
  | .map pairs => encodeMap pairs.length :: callsPairs pairs
  | .tag number item => encodeTag number :: calls item
  | .simple value => [encodeSimple value.val]

def callsAll : List Tree → List (Encode Unit)
  | [] => []
  | item :: rest => calls item ++ callsAll rest

def callsPairs : List (Tree × Tree) → List (Encode Unit)
  | [] => []
  | (key, value) :: rest => calls key ++ (calls value ++ callsPairs rest)

end

mutual

def Counted : Tree → Prop
  | .bstr data => data.length < 2 ^ 64
  | .tstr data => data.length < 2 ^ 64
  | .array items => items.length < 2 ^ 64 ∧ CountedAll items
  | .map pairs => pairs.length < 2 ^ 64 ∧ CountedPairs pairs
  | .tag _ item => Counted item
  | _ => True

def CountedAll : List Tree → Prop
  | [] => True
  | item :: rest => Counted item ∧ CountedAll rest

def CountedPairs : List (Tree × Tree) → Prop
  | [] => True
  | (key, value) :: rest => Counted key ∧ Counted value ∧ CountedPairs rest

end

theorem callsPairs_eq (pairs : List (Tree × Tree)) : callsPairs pairs = callsAll (flat pairs) := by
  induction pairs with
  | nil => rfl
  | cons pair rest ih => rw [callsPairs, flat_cons, callsAll, callsAll, ih]

theorem countedAll_iff {items : List Tree} : CountedAll items ↔ ∀ item ∈ items, item.Counted := by
  induction items with
  | nil => exact iff_of_true trivial fun _ inside => absurd inside List.not_mem_nil
  | cons item rest ih => rw [CountedAll, ih, List.forall_mem_cons]

theorem countedPairs_iff {pairs : List (Tree × Tree)} : CountedPairs pairs ↔ ∀ item ∈ flat pairs, item.Counted := by
  induction pairs with
  | nil => exact iff_of_true trivial fun _ inside => absurd inside List.not_mem_nil
  | cons pair rest ih => rw [CountedPairs, ih, flat_cons, List.forall_mem_cons, List.forall_mem_cons]

end Tree

theorem grows_encodeSimple (value : UInt8) : Proc.Moves Grows (encodeSimple value) := by
  refine .ite (.fail _) (.ite (.bind (grows_encHead _ _) fun _ => grows_encTrackItem) ?_)
  exact .bind (grows_encWrite _) fun _ => .bind (grows_encWrite _) fun _ => grows_encTrackItem

theorem emits_encodeSimple (value : Simple) : Emits (encodeSimple value.val) (headBytes .simple value.val.toNat) := by
  obtain ⟨value, plain⟩ := value
  unfold encodeSimple
  rw [if_neg (by simp [plain])]
  split
  · exact emits_item _ _
  next large =>
    have tracked : Emits encTrackItem [] := emits_modify (fun _ => rfl) fun _ => rfl
    rw [headBytes_simple large]
    exact (emits_encWrite [0xF8]).bind ((emits_encWrite [value]).bind tracked)

/-- The head of an item, as the encoder writes it. -/
theorem isHead_headBytes (major : Major) {value : Nat} (small : value < 2 ^ 64) :
    ∃ first argument, headBytes major value = first :: argument ∧
      IsHead first argument { major, additional := additionalOf value, argument := UInt64.ofNat value } := by
  have whole : (Decoder.init (headBytes major value)).rest = headBytes major value ++ [] := (List.append_nil _).symm
  have read := reads_decHead major value small (Decoder.init (headBytes major value)) [] rfl whole
  obtain ⟨bytes, here, -, first, argument, shape, isHead⟩ := passes_decHead _ _ _ read
  rw [Decoder.rest_advance whole, whole, List.append_nil, List.append_nil] at here
  exact ⟨first, argument, here.trans shape, isHead⟩

theorem encodes_head {major : Major} {value levels : Nat} {content : Bytes} (small : value < 2 ^ 64)
    (inside : Content (Encodes levels) { major, additional := additionalOf value, argument := UInt64.ofNat value } content) :
    Encodes (levels + 1) (headBytes major value ++ content) := by
  obtain ⟨first, argument, shape, isHead⟩ := isHead_headBytes major small
  exact ⟨first, argument, content, _, by rw [shape, List.cons_append], isHead, inside⟩

theorem encodes_scalar {major : Major} {value : Nat} (small : value < 2 ^ 64)
    (inside : Content (Encodes 0) { major, additional := additionalOf value, argument := UInt64.ofNat value } []) :
    ∃ levels, Encodes levels (headBytes major value) := by
  refine ⟨1, ?_⟩
  rw [← List.append_nil (headBytes major value)]
  exact encodes_head small inside

/-- Values that are well formed one by one stand in a series, on as many levels as the
deepest of them needs. -/
theorem series_bytesAll {items : List Tree} (each : ∀ item ∈ items, ∃ levels, Encodes levels item.bytes) :
    ∃ levels, Series (Encodes levels) items.length (Tree.bytesAll items) := by
  induction items with
  | nil => exact ⟨0, series_nil _⟩
  | cons item rest ih =>
    obtain ⟨high, first⟩ := each item List.mem_cons_self
    obtain ⟨low, others⟩ := ih fun later inside => each later (List.mem_cons_of_mem _ inside)
    refine ⟨max high low, Series.cons (first.mono (Nat.le_max_left _ _)) ?_⟩
    exact others.mono fun piece part => part.mono (Nat.le_max_right _ _)

theorem encodes_tree (tree : Tree) (counted : tree.Counted) : ∃ levels, Encodes levels tree.bytes := by
  induction tree using Tree.induction with
  | uint value => exact encodes_scalar value.toNat_lt rfl
  | negint value => exact encodes_scalar value.toNat_lt rfl
  | bstr data => exact ⟨1, encodes_head counted (toNat_ofNat counted).symm⟩
  | tstr data => exact ⟨1, encodes_head counted (toNat_ofNat counted).symm⟩
  | array items ih =>
    obtain ⟨small, counted⟩ := counted
    obtain ⟨levels, series⟩ := series_bytesAll fun item inside => ih item inside (Tree.countedAll_iff.mp counted item inside)
    refine ⟨levels + 1, encodes_head small ?_⟩
    change Series _ (UInt64.ofNat items.length).toNat _
    rwa [toNat_ofNat small]
  | map pairs ih =>
    obtain ⟨small, counted⟩ := counted
    obtain ⟨levels, series⟩ := series_bytesAll fun item inside => ih item inside
      (Tree.countedPairs_iff.mp counted item inside)
    rw [← Tree.bytesPairs_eq, Tree.length_flat] at series
    refine ⟨levels + 1, encodes_head small ?_⟩
    change Series _ ((UInt64.ofNat pairs.length).toNat * 2) _
    rwa [toNat_ofNat small]
  | tag number item ih =>
    obtain ⟨levels, inside⟩ := ih counted
    exact ⟨levels + 1, encodes_head number.toNat_lt inside⟩
  | simple value => exact encodes_scalar (Nat.lt_of_lt_of_le value.val.toNat_lt (by decide)) rfl

end Hiya.Cbor

namespace Hiya.Fido2
open Library Cbor Ssh

theorem sends_callsAll {items : List Cbor.Tree} (each : ∀ item ∈ items, Sends item.calls item.bytes) :
    Sends (Cbor.Tree.callsAll items) (Cbor.Tree.bytesAll items) := by
  induction items with
  | nil => exact .nil
  | cons item rest ih =>
    exact (each item List.mem_cons_self).append (ih fun later inside => each later (List.mem_cons_of_mem _ inside))

theorem sends_calls (tree : Cbor.Tree) : Sends tree.calls tree.bytes := by
  have single {item : Encode Unit} {bytes : Bytes} (grow : Proc.Moves Grows item) (emit : Cbor.Emits item bytes) :
      Sends [item] bytes := by
    have sends := Sends.cons grow emit .nil
    rwa [List.append_nil] at sends
  induction tree using Cbor.Tree.induction with
  | uint value => exact single (grows_encodeUint value) (emits_encodeUint value)
  | negint value => exact single (grows_encodeNegint value) (emits_encodeNegint value)
  | bstr data => exact single (grows_encodeString _ data) (emits_encodeString _ data)
  | tstr data => exact single (grows_encodeString _ data) (emits_encodeString _ data)
  | array items ih => exact .array _ (sends_callsAll ih)
  | map pairs ih =>
    rw [Cbor.Tree.calls, Cbor.Tree.bytes, Cbor.Tree.callsPairs_eq, Cbor.Tree.bytesPairs_eq]
    exact .map _ (sends_callsAll ih)
  | tag number item ih => exact .cons (grows_encHead _ _) (emits_encHead _ _) ih
  | simple value => exact single (grows_encodeSimple _) (emits_encodeSimple value)

/-- One item and nothing behind it. -/
def OneItem (bytes : Bytes) : Prop := ∃ levels, Encodes levels bytes

theorem oneItem_of_calls {capacity : Nat} {tree : Cbor.Tree} {bytes : Bytes} (counted : tree.Counted)
    (made : encodeItems capacity tree.calls = some bytes) : OneItem bytes := by
  rw [(sends_calls tree).sent made]
  exact encodes_tree tree counted

/-- A response, unless it is empty or an error. -/
def Shaped (outcome : Except Status Reply) : Prop := ∀ reply, outcome = .ok reply → payload reply ≠ [] →
    OneItem (payload reply)

theorem shaped_error (problem : Status) : Shaped (.error problem) := by
  intro reply answered
  cases answered

theorem shaped_empty : Shaped (.ok (.data [])) := by
  intro reply answered some?
  cases answered
  exact absurd rfl some?

theorem shaped_of {reply : Reply} (item : OneItem (payload reply)) : Shaped (.ok reply) := by
  intro other answered _
  cases answered
  exact item

def Shapes (body : Command Reply) : Prop := ∀ ctx, Shaped (body ctx).1

namespace Shapes
variable {α : Type}

protected theorem fail (problem : Status) : Shapes (Proc.fail problem) := fun _ => shaped_error problem

protected theorem empty : Shapes (pure (.data [])) := fun _ => shaped_empty

protected theorem bind {first : Command α} {next : α → Command Reply} (tail : ∀ value, Shapes (next value)) :
    Shapes (first >>= next) := by
  intro ctx
  rw [Proc.bind_apply]
  rcases first ctx with ⟨problem | value, reached⟩
  · exact shaped_error problem
  · exact tail value reached

/-- The rest may rely on the value it is given. -/
protected theorem need {value : Option α} {problem : Status} {next : α → Command Reply}
    (tail : ∀ found, value = some found → Shapes (next found)) : Shapes (Command.need value problem >>= next) := by
  intro ctx
  have ended : Proc.Ends (Command.need value problem >>= next) ctx fun outcome _ => Shaped outcome :=
    ends_value (fun _ => shaped_error problem) fun found same => tail found same ctx
  exact ended

protected theorem ite {condition : Prop} [Decidable condition] {first second : Command Reply} (yes : Shapes first)
    (no : Shapes second) : Shapes (if condition then first else second) := by
  split
  · exact yes
  · exact no

theorem sends {capacity : Nat} {items : List (Encode Unit)} (tree : Cbor.Tree) (same : items = tree.calls)
    (counted : tree.Counted) :
    Shapes (sendItems capacity items) := by
  subst same
  exact .need fun bytes made => fun _ => shaped_of (oneItem_of_calls counted made)

end Shapes

def textTree (text : String) : Cbor.Tree := .tstr (ascii text)

def boolTree (value : Bool) : Cbor.Tree := .simple (if value then ⟨trueValue, rfl⟩ else ⟨falseValue, rfl⟩)

def coseTree (algorithm : UInt64) (pubkey : Buf 65) : Cbor.Tree :=
  .map [(.uint 1, .uint 2), (.uint 3, .negint algorithm), (.negint 0, .uint 1),
    (.negint 1, .bstr (sliceAt pubkey.bytes 1 32).bytes),
    (.negint 2, .bstr (sliceAt pubkey.bytes 33 32).bytes)]

def registrationTree (authData der : Bytes) : Cbor.Tree :=
  .map [(.uint 1, textTree "packed"), (.uint 2, .bstr authData),
    (.uint 3, .map [(textTree "alg", .negint 6), (textTree "sig", .bstr der)])]

def descriptorTree (credId : CredentialId) : Cbor.Tree :=
  .map [(textTree "id", .bstr credId.bytes), (textTree "type", textTree "public-key")]

def userTree (user : User) : Cbor.Tree :=
  .map [(textTree "id", .bstr user.id.bytes), (textTree "name", .tstr user.name.bytes),
    (textTree "displayName", .tstr user.displayName.bytes)]

/-- The last two fields are there on the same conditions under which they are counted. -/
def assertionPairs (credId : CredentialId) (authData der : Bytes) (user : Option User) (total : Nat) :
    List (Cbor.Tree × Cbor.Tree) :=
  [(.uint 1, descriptorTree credId), (.uint 2, .bstr authData), (.uint 3, .bstr der)] ++
    (user.map fun user => (Cbor.Tree.uint 4, userTree user)).toList ++
      (if total > 1 then [(.uint 5, .uint (UInt64.ofNat total))] else [])

def infoTree (ctx : Ctx) : Cbor.Tree :=
  .map [(.uint 0x01, .array [textTree "FIDO_2_0", textTree "FIDO_2_1_PRE", textTree "FIDO_2_1"]),
    (.uint 0x02, .array [textTree "credProtect", textTree "credentialMgmtPreview", textTree "hmac-secret"]),
    (.uint 0x03, .bstr aaguid),
    (.uint 0x04, .map [(textTree "plat", boolTree true), (textTree "rk", boolTree true), (textTree "up", boolTree true),
      (textTree "uv", boolTree true), (textTree "clientPin", boolTree ctx.pin.pinSet), (textTree "bioEnroll", boolTree true),
      (textTree "credMgmt", boolTree true), (textTree "pinUvAuthToken", boolTree true), (textTree "alwaysUv", boolTree true),
      (textTree "makeCredUvNotRqd", boolTree false)]),
    (.uint 0x05, .uint 4096), (.uint 0x06, .array [.uint 1]), (.uint 0x07, .uint (UInt64.ofNat maxAllowList)),
    (.uint 0x08, .uint (UInt64.ofNat maxCredentialIdLen)), (.uint 0x09, .array [textTree "internal"]),
    (.uint 0x0A, .array [.map [(textTree "alg", .negint 6), (textTree "type", textTree "public-key")]]),
    (.uint 0x18, .uint (UInt64.ofNat maxCredentialsStored - UInt64.ofNat ctx.credentialCount))]

def enrollmentTree (template : BioTemplate) : Cbor.Tree :=
  .map [(.uint 1, .bstr template.templateId.bytes), (.uint 2, .tstr template.friendlyName.bytes)]

def fieldTree (key : UInt64) (value : Cbor.Tree) : Cbor.Tree := .map [(.uint key, value)]

def rpPairs (rp : Buf 32 × CText maxRpIdLen) : List (Cbor.Tree × Cbor.Tree) :=
  [(.uint 3, .map [(textTree "id", .tstr rp.2.bytes)]), (.uint 4, .bstr rp.1.bytes)]

def credentialPairs (cred : Credential) : List (Cbor.Tree × Cbor.Tree) :=
  [(.uint 6, userTree cred.user), (.uint 7, descriptorTree cred.credId), (.uint 8, coseTree 6 cred.publicKey)]

theorem registrationItems_eq (authData der : Bytes) : registrationItems authData der =
    (registrationTree authData der).calls := rfl

theorem getInfoItems_eq (ctx : Ctx) : getInfoItems ctx = (infoTree ctx).calls := by
  unfold infoTree
  cases set : ctx.pin.pinSet with
  | false => unfold getInfoItems; rw [set]; rfl
  | true => unfold getInfoItems; rw [set]; rfl

theorem cosePubkeyItems_eq {pubkey : Buf 65} (point : IsPoint pubkey) :
    cosePubkeyItems pubkey = some (coseTree 6 pubkey).calls :=
  if_neg (not_not_intro point)

/-- A user is written only where there is a slot to take it from. -/
theorem assertionItems_eq {credId : CredentialId} {authData der : Bytes} {user : Option User} {includeUser : Bool}
    {total : Nat}
    (known : includeUser = true → user.isSome) : assertionItems credId authData der user includeUser total =
      (Cbor.Tree.map (assertionPairs credId authData der (if includeUser then user else none) total)).calls := by
  unfold assertionItems assertionPairs
  cases includeUser with
  | false =>
    by_cases many : total > 1
    · simp only [if_pos many]
      rfl
    · simp only [if_neg many]
      rfl
  | true =>
    obtain ⟨user, rfl⟩ := Option.isSome_iff_exists.mp (known rfl)
    by_cases many : total > 1
    · simp only [if_pos many]
      rfl
    · simp only [if_neg many]
      rfl

theorem Blob.counted {size : Nat} (blob : Blob size) (small : size < 2 ^ 64) : blob.bytes.length < 2 ^ 64 :=
  Nat.lt_of_le_of_lt blob.short small

theorem CText.counted {size : Nat} (text : CText size) (small : size < 2 ^ 64) : text.bytes.length < 2 ^ 64 :=
    text.short.trans small

theorem Buf.counted {size : Nat} (buf : Buf size) (small : size < 2 ^ 64) : buf.bytes.length < 2 ^ 64 :=
  Nat.lt_of_le_of_lt (Nat.le_of_eq buf.length_bytes) small

theorem counted_text {text : String} (short : (ascii text).length < 2 ^ 64) : (textTree text).Counted := short

theorem counted_map {pairs : List (Cbor.Tree × Cbor.Tree)} (few : pairs.length ≤ 5)
    (inside : Cbor.Tree.CountedPairs pairs) : (Cbor.Tree.map pairs).Counted :=
  ⟨Nat.lt_of_le_of_lt few (by decide), inside⟩

theorem registrationTree_counted {authData der : Bytes} (long : authData.length < 2 ^ 64) (short : der.length < 2 ^ 64) :
    (registrationTree authData der).Counted :=
  counted_map (Nat.le_add_right 3 2) ⟨trivial, counted_text (by decide), trivial, long, trivial,
    counted_map (Nat.le_add_right 2 3) ⟨counted_text (by decide), trivial, counted_text (by decide), short, trivial⟩, trivial⟩

theorem coseTree_counted (algorithm : UInt64) (pubkey : Buf 65) : (coseTree algorithm pubkey).Counted :=
  counted_map (Nat.le_refl 5) ⟨trivial, trivial, trivial, trivial, trivial, trivial, trivial,
    Buf.counted _ (by decide), trivial,
    Buf.counted _ (by decide), trivial⟩

theorem descriptorTree_counted (credId : CredentialId) : (descriptorTree credId).Counted :=
  counted_map (Nat.le_add_right 2 3) ⟨counted_text (by decide), Blob.counted credId (by decide), counted_text (by decide),
    counted_text (by decide), trivial⟩

theorem userTree_counted (user : User) : (userTree user).Counted :=
  counted_map (Nat.le_add_right 3 2) ⟨counted_text (by decide), Blob.counted user.id (by decide), counted_text (by decide),
    CText.counted user.name (by decide), counted_text (by decide), CText.counted user.displayName (by decide), trivial⟩

theorem assertionTree_counted (credId : CredentialId) {authData der : Bytes} (user : Option User) (total : Nat)
    (long : authData.length < 2 ^ 64) (short : der.length < 2 ^ 64) :
    (Cbor.Tree.map (assertionPairs credId authData der user total)).Counted := by
  have last : Cbor.Tree.CountedPairs (if total > 1 then [(.uint 5, .uint (UInt64.ofNat total))] else []) ∧
      (if total > 1 then [(Cbor.Tree.uint 5, Cbor.Tree.uint (UInt64.ofNat total))] else []).length ≤ 1 := by
    split
    · exact ⟨⟨trivial, trivial, trivial⟩, Nat.le_refl 1⟩
    · exact ⟨trivial, Nat.zero_le 1⟩
  unfold assertionPairs
  cases user with
  | none =>
    refine counted_map ?_ ⟨trivial, descriptorTree_counted credId, trivial, long, trivial, short, last.1⟩
    simp only [Option.map_none, Option.toList_none, List.append_nil, List.length_append, List.length_cons, List.length_nil]
    omega
  | some user =>
    refine counted_map ?_ ⟨trivial, descriptorTree_counted credId, trivial, long, trivial, short, trivial,
      userTree_counted user, last.1⟩
    simp only [Option.map_some, Option.toList_some, List.length_append, List.length_cons, List.length_nil]
    omega

theorem infoTree_counted (ctx : Ctx) : (infoTree ctx).Counted := by
  simp only [infoTree, textTree, boolTree, Cbor.Tree.Counted, Cbor.Tree.CountedAll, Cbor.Tree.CountedPairs,
    List.length_cons, List.length_nil, and_true,
    true_and]
  decide

theorem fieldTree_counted (key : UInt64) {value : Cbor.Tree} (counted : value.Counted) : (fieldTree key value).Counted :=
  counted_map (Nat.le_add_right 1 4) ⟨trivial, counted, trivial⟩

theorem enrollmentTree_counted (template : BioTemplate) : (enrollmentTree template).Counted :=
  counted_map (Nat.le_add_right 2 3)
    ⟨trivial, Blob.counted template.templateId (by decide), trivial, CText.counted template.friendlyName (by decide), trivial⟩

section
variable {crypto : Crypto} {env : Env}

theorem shapes_sendRegistration (credId : CredentialId) (signCount : UInt32) {authData : Bytes} (signature : Buf 64)
    (capacity : Nat)
    (long : authData.length < 2 ^ 64) : Shapes (sendRegistration credId signCount authData signature capacity) := by
  refine .need fun der made => .need fun bytes encoded => fun _ => shaped_of ?_
  have short := ecdsaSigToDer_short made
  exact oneItem_of_calls (registrationTree_counted long (by omega)) (registrationItems_eq authData der ▸ encoded)

theorem shapes_makeCredential (body : Bytes) (capacity : Nat) : Shapes (makeCredential crypto env body capacity) := by
  refine .bind fun parsed => .bind fun ctx => .ite (.fail _) (.bind fun uv => .bind fun drawn => .bind fun secret => ?_)
  refine .bind fun ctx => .bind fun _ => .need fun authData made => .bind fun signature => ?_
  have short := (registrationData_of made).short
  have sends := shapes_sendRegistration drawn.2 (ctx.globalSignCount + 1) signature capacity
    (show authData.length < 2 ^ 64 by omega)
  exact .ite (.bind fun _ => sends) sends

theorem shapes_buildAssertionResponse {holder : Option CredSlot} {includeUser : Bool} (known : includeUser = true →
    holder.isSome)
    (privkey : Buf 32) (credId : CredentialId) (rpIdHash clientDataHash : Buf 32) (flags : UInt8) (total capacity : Nat) :
    Shapes (buildAssertionResponse crypto env holder privkey credId rpIdHash clientDataHash flags total includeUser capacity) := by
  refine .bind fun ctx => .bind fun _ => .need fun authData made => .bind fun signature => .need fun der shaped => ?_
  have long := (assertionData_of made).short
  have short := ecdsaSigToDer_short shaped
  dsimp only
  split
  next bytes encoded =>
    intro _
    apply shaped_of
    rw [assertionItems_eq (by simpa using known)] at encoded
    exact oneItem_of_calls (assertionTree_counted _ _ _ (by omega) (by omega)) encoded
  · exact .bind fun _ => .fail _

/-- A command that goes on after its answer is made. -/
theorem shapes_then {first : Command Reply} {last : Reply → Command Unit} (shapes : Shapes first) :
    Shapes (first >>= fun reply => last reply >>= fun _ => pure reply) := by
  intro ctx
  have made := shapes ctx
  rw [Proc.bind_apply]
  rcases outcome : first ctx with ⟨problem | reply, reached⟩
  · exact shaped_error problem
  · rw [outcome] at made
    change Shaped ((last reply >>= fun _ => pure reply) reached).1
    rw [Proc.bind_apply]
    rcases last reply reached with ⟨problem | value, final⟩
    · exact shaped_error problem
    · exact made

theorem shapes_assertSlot (slot : CredSlot) (rpIdHash clientDataHash : Buf 32) (flags : UInt8) (total : Nat)
    (includeUser : Bool)
    (capacity : Nat) : Shapes (assertSlot crypto env slot rpIdHash clientDataHash flags total includeUser capacity) :=
  .bind fun _ => shapes_then (shapes_buildAssertionResponse (fun _ => rfl) _ _ _ _ _ _ _)

theorem shapes_getAssertion (body : Bytes) (capacity : Nat) : Shapes (getAssertion crypto env body capacity) := by
  refine .bind fun parsed => .bind fun uv => .bind fun _ => .bind fun ctx => ?_
  split
  · exact shapes_then (shapes_buildAssertionResponse (fun never => by cases never) _ _ _ _ _ _ _)
  · exact .fail _
  · exact .bind fun _ => shapes_assertSlot _ _ _ _ _ _ _

theorem shapes_getNextAssertion (capacity : Nat) : Shapes (getNextAssertion crypto env capacity) := by
  refine .bind fun ctx => .ite (.bind fun _ => .fail _) ?_
  split
  · exact .fail _
  · exact .bind fun _ => shapes_assertSlot _ _ _ _ _ _ _

theorem shapes_getInfo (capacity : Nat) : Shapes (getInfo capacity) :=
    .bind fun ctx => .sends _ (getInfoItems_eq ctx) (infoTree_counted ctx)

theorem tokenItems_eq (token : Buf 32) : tokenItems token = (fieldTree 2 (.bstr token.bytes)).calls := rfl

theorem tokenTree_counted (token : Buf 32) : (fieldTree 2 (.bstr token.bytes)).Counted :=
    fieldTree_counted 2 (Buf.counted token (by decide))

theorem shapes_getPinToken (params : ClientPinParams) (capacity : Nat) : Shapes (getPinToken crypto env params capacity) := by
  refine .bind fun _ => .bind fun _ => .bind fun _ => .bind fun _ => .bind fun _ => .bind fun keys => .bind fun _ => ?_
  refine .bind fun token => .bind fun sealed => .need fun bytes encoded => .bind fun _ => fun _ => shaped_of ?_
  exact oneItem_of_calls (tokenTree_counted sealed) (tokenItems_eq sealed ▸ encoded)

theorem shapes_sendToken (keys : PinKeys) (permissions : UInt32) (rpId : Blob 255) (capacity : Nat) :
    Shapes (sendToken crypto env keys permissions rpId capacity) :=
  .bind fun _ => .bind fun sealed => .bind fun _ => .sends _ (tokenItems_eq sealed) (tokenTree_counted sealed)

theorem shapes_clientPin (body : Bytes) (capacity : Nat) : Shapes (clientPin crypto env body capacity) := by
  refine .bind fun params => .bind fun _ => .bind fun ctx => ?_
  split
  · exact .sends (fieldTree 3 (.uint _)) rfl (fieldTree_counted 3 trivial)
  · exact .sends (fieldTree 1 (coseTree 24 ctx.authPubkey)) rfl (fieldTree_counted 1 (coseTree_counted 24 _))
  · refine .bind fun _ => .bind fun _ => .bind fun _ => .bind fun _ => .bind fun _ => .bind fun _ => .bind fun _ => .bind fun _ => ?_
    exact .bind fun _ => .bind fun _ => .ite (.bind fun _ => .empty) (.bind fun _ => .fail _)
  · refine .bind fun _ => .bind fun _ => .bind fun _ => .bind fun _ => .bind fun _ => .bind fun _ => .bind fun _ => .bind fun _ => ?_
    refine .bind fun _ => .bind fun _ => .bind fun _ => .bind fun _ => .bind fun _ => .bind fun _ => .bind fun _ => ?_
    exact .ite (.bind fun _ => .empty) (.bind fun _ => .fail _)
  · exact shapes_getPinToken _ _
  · exact .bind fun _ => .bind fun _ => .bind fun _ => .bind fun _ => .bind fun _ => .bind fun _ => shapes_sendToken _ _ _ _
  · exact .sends (fieldTree 5 (.uint 3)) rfl (fieldTree_counted 5 trivial)
  · refine .bind fun _ => .bind fun _ => .bind fun _ => .bind fun _ => .bind fun _ => .bind fun _ => .bind fun _ => .bind fun _ => ?_
    exact .bind fun _ => .empty
  · refine .bind fun _ => .bind fun _ => .bind fun _ => .bind fun _ => .bind fun _ => .bind fun _ => .bind fun _ => .bind fun _ => ?_
    exact .bind fun _ => shapes_sendToken _ _ _ _
  · exact .fail _

theorem shapes_enumerateEnrollments (capacity : Nat) : Shapes (enumerateEnrollments capacity) := by
  refine .bind fun ctx => ?_
  have listed (templates : List BioTemplate) : (templates.flatMap fun template => [encodeMap 2, encodeUint 0x01,
      encodeBstr template.templateId.bytes, encodeUint 0x02, encodeTstr template.friendlyName.bytes]) =
      Cbor.Tree.callsAll (templates.map enrollmentTree) := by
    induction templates with
    | nil => rfl
    | cons template rest ih => rw [List.flatMap_cons, List.map_cons, Cbor.Tree.callsAll, ih]; rfl
  have few : ctx.enrolled.length < 2 ^ 64 := by
    have most : ctx.enrolled.length ≤ (templateSlots.map ctx.bioTemplates).length := List.length_filter_le _ _
    rw [List.length_map] at most
    exact Nat.lt_of_le_of_lt most (by decide)
  refine .sends (fieldTree 1 (.array (ctx.enrolled.map enrollmentTree))) ?_ (fieldTree_counted 1 ⟨?_, ?_⟩)
  · rw [listed, fieldTree, Cbor.Tree.calls, Cbor.Tree.callsPairs, Cbor.Tree.callsPairs, Cbor.Tree.calls,
      Cbor.Tree.calls, List.length_map]
    rw [List.append_nil]
    rfl
  · rwa [List.length_map]
  · apply Cbor.Tree.countedAll_iff.mpr
    intro item inside
    obtain ⟨template, -, rfl⟩ := List.mem_map.mp inside
    exact enrollmentTree_counted template

theorem shapes_enrollBegin (params : BioEnrollParams) (capacity : Nat) : Shapes (enrollBegin env params capacity) := by
  refine .bind fun _ => .bind fun _ => .bind fun _ => ?_
  split
  · exact .bind fun _ => .fail _
  next id _ =>
    refine .bind fun _ => .sends (.map [(.uint 1, .bstr id.bytes), (.uint 2, .uint 0), (.uint 3, .uint 4)]) rfl ?_
    exact counted_map (Nat.le_add_right 3 2) ⟨trivial, Buf.counted id (by decide), trivial, trivial, trivial, trivial,
      trivial⟩

theorem shapes_bioEnrollCommand (params : BioEnrollParams) (capacity : Nat) :
    Shapes (bioEnrollCommand env params capacity) := by
  unfold bioEnrollCommand
  split
  · exact shapes_enrollBegin _ _
  · refine .bind fun _ => .bind fun _ => .bind fun _ => .bind fun _ => .bind fun _ => .bind fun _ => ?_
    refine .sends (.map [(.uint 2, .uint 0), (.uint 3, .uint _)]) rfl ?_
    exact counted_map (Nat.le_add_right 2 3) ⟨trivial, trivial, trivial, trivial, trivial⟩
  · exact .bind fun _ => .empty
  · exact shapes_enumerateEnrollments _
  · exact .bind fun _ => .bind fun _ => .bind fun _ => .bind fun _ => .bind fun _ => .empty
  · exact .bind fun _ => .bind fun _ => .bind fun _ => .bind fun _ => .empty
  · refine .sends (.map [(.uint 1, .uint 1), (.uint 2, .uint 2), (.uint 3, .uint 5)]) rfl ?_
    exact counted_map (Nat.le_add_right 3 2) ⟨trivial, trivial, trivial, trivial, trivial, trivial, trivial⟩
  · exact .fail _

theorem shapes_bioEnrollment (body : Bytes) (capacity : Nat) : Shapes (bioEnrollment crypto env body capacity) := by
  refine .bind fun params => .bind fun _ => .ite ?_ ?_
  · exact .sends (fieldTree 1 (.uint 1)) rfl (fieldTree_counted 1 trivial)
  · exact .ite (.bind fun _ => shapes_bioEnrollCommand _ _) (shapes_bioEnrollCommand _ _)

structure Keyed (ctx : Ctx) : Prop where
  stored : ∀ slot, (ctx.credentials slot).inUse = true → IsPoint (ctx.credentials slot).publicKey
  listed : ∀ slot ∈ ctx.credEnum.credSlots, IsPoint (ctx.credentials slot).publicKey

theorem counted_number {pairs : List (Cbor.Tree × Cbor.Tree)} (key value : UInt64) (inside : Cbor.Tree.CountedPairs pairs) :
    Cbor.Tree.CountedPairs ((.uint key, .uint value) :: pairs) := ⟨trivial, trivial, inside⟩

theorem shapes_enumerateRpsBegin (capacity : Nat) : Shapes (enumerateRpsBegin capacity) := by
  refine .bind fun ctx => .bind fun _ => ?_
  split
  · exact .fail _
  next first rest _ =>
    refine .bind fun _ => .sends (.map (rpPairs first ++ [(.uint 5, .uint (UInt64.ofNat (rest.length + 1)))])) rfl ?_
    refine counted_map (Nat.le_add_right 3 2) ⟨trivial, ?_, trivial, Buf.counted first.1 (by decide), trivial, trivial,
      trivial⟩
    exact counted_map (Nat.le_add_right 1 4) ⟨counted_text (by decide), CText.counted first.2 (by decide), trivial⟩

theorem shapes_enumerateRpsNext (capacity : Nat) : Shapes (enumerateRpsNext capacity) := by
  refine .bind fun ctx => .bind fun rp => .bind fun _ => .sends (.map (rpPairs rp)) rfl ?_
  refine counted_map (Nat.le_add_right 2 3) ⟨trivial, ?_, trivial, Buf.counted rp.1 (by decide), trivial⟩
  exact counted_map (Nat.le_add_right 1 4) ⟨counted_text (by decide), CText.counted rp.2 (by decide), trivial⟩

/-- What is written of a credential whose key is a point. -/
theorem shapes_credential {cred : Credential} (point : IsPoint cred.publicKey) (more : List (Cbor.Tree × Cbor.Tree))
    (few : more.length ≤ 2)
    (counted : Cbor.Tree.CountedPairs more) {count : Nat} (known : count = 3 + more.length) (capacity : Nat) :
    Shapes (sendItems capacity ([encodeMap count] ++ credentialItems cred ++ Cbor.Tree.callsPairs more)) := by
  refine .sends (.map (credentialPairs cred ++ more)) ?_ (counted_map ?_ ?_)
  · unfold credentialItems
    rw [cosePubkeyItems_eq point, known, Nat.add_comm]
    rfl
  · rw [List.length_append]
    exact Nat.add_le_add_left few 3
  · exact ⟨trivial, userTree_counted _, trivial, descriptorTree_counted _, trivial, coseTree_counted 6 _, counted⟩

theorem enumerateCredsBegin_shaped {start : Ctx} (keyed : Keyed start) (params : CredMgmtParams) (capacity : Nat) :
    Proc.Ends (enumerateCredsBegin params capacity) start fun outcome _ => Shaped outcome := by
  refine ends_need (shaped_error _) fun rpIdHash _ => ?_
  apply Proc.Ends.get
  apply Proc.Ends.andThen
  split
  · exact shaped_error _
  next first rest found =>
    have inside : first ∈ first :: rest := List.mem_cons_self
    rw [← found, List.mem_filter, Bool.and_eq_true] at inside
    apply Proc.Ends.andThen
    exact shapes_credential (keyed.stored first inside.2.1)
      [(.uint 9, .uint (UInt64.ofNat (rest.length + 1))),
        (.uint 10, .uint (start.credentials first).credProtect.toUInt64)] (Nat.le_refl 2)
      (counted_number _ _ (counted_number _ _ trivial)) rfl capacity _

theorem enumerateCredsNext_shaped {start : Ctx} (keyed : Keyed start) (capacity : Nat) :
    Proc.Ends (enumerateCredsNext capacity) start fun outcome _ => Shaped outcome := by
  apply Proc.Ends.get
  refine ends_need (shaped_error _) fun slot found => ?_
  apply Proc.Ends.andThen
  have inside : slot ∈ start.credEnum.credSlots := List.mem_of_getElem? found
  exact shapes_credential (keyed.listed slot inside) [(.uint 10, .uint (start.credentials slot).credProtect.toUInt64)]
    (Nat.le_succ 1)
    (counted_number _ _ trivial) rfl capacity _

theorem credMgmtCommand_shaped {start : Ctx} (keyed : Keyed start) (params : CredMgmtParams) (capacity : Nat) :
    Proc.Ends (credMgmtCommand crypto env params capacity) start fun outcome _ => Shaped outcome := by
  have free {body : Command Reply} (shapes : Shapes body) : Proc.Ends body start fun outcome _ => Shaped outcome :=
    shapes start
  apply Proc.Ends.get
  split
  · apply free
    refine .sends (.map [(.uint 1, .uint _), (.uint 2, .uint _)]) rfl ?_
    exact counted_map (Nat.le_add_right 2 3) (counted_number _ _ (counted_number _ _ trivial))
  · exact free (shapes_enumerateRpsBegin _)
  · exact free (shapes_enumerateRpsNext _)
  · exact enumerateCredsBegin_shaped keyed _ _
  · exact enumerateCredsNext_shaped keyed _
  · exact free (.bind fun _ => .bind fun _ => .bind fun _ => .bind fun _ => .bind fun _ => .empty)
  · exact free (.bind fun _ => .bind fun _ => .bind fun _ => .bind fun _ => .bind fun _ => .bind fun _ => .empty)
  · exact shaped_error _

theorem credentialManagement_shaped {start : Ctx} (keyed : Keyed start) (body : Bytes) (capacity : Nat) :
    Proc.Ends (credentialManagement crypto env body capacity) start fun outcome _ => Shaped outcome := by
  refine ends_ofExcept (fun _ => shaped_error _) fun params _ => ?_
  apply Proc.Ends.ite
  · exact fun _ => credMgmtCommand_shaped keyed params capacity
  · intro _
    have checks : Proc.Keeps Ctx.table (authorize crypto env permCredentialMgmt params.pinUvAuthParam params.pinProtocol
      (List.replicate 32 0xFF ++ [params.subCommand.toUInt8]) 16) := keeps_authorize _ _ _ _ _
    refine checks.ends (fun _ _ _ => shaped_error _) fun _ reached kept => ?_
    have table : reached.credentials = start.credentials := congrArg Prod.fst kept
    apply Proc.Ends.andThen
    refine credMgmtCommand_shaped ⟨?_, fun _ never => absurd never List.not_mem_nil⟩ params capacity
    intro slot inUse
    rw [show _ = reached.credentials from rfl, table] at inUse ⊢
    exact keyed.stored slot inUse

theorem residentOf_point {request : Request} {ctx : Ctx} {cred : Credential}
    (resident : residentOf crypto request ctx = some cred) :
    IsPoint cred.publicKey := by
  obtain ⟨params, uv, keypair, id, secret, authData, made, rfl⟩ := residentOf_made resident
  exact (registrationData_eq made).1

/-- A credential put into a slot of a table whose keys are points. -/
theorem Keyed.put {ctx reached : Ctx} {slot : CredSlot} {cred : Credential} (keyed : Keyed ctx)
    (table : reached.credentials = Function.update ctx.credentials slot cred)
    (point : cred.inUse = true ∨ reached.credEnum.credSlots ≠ [] → IsPoint cred.publicKey)
    (listing : ∀ other ∈ reached.credEnum.credSlots, other ∈ ctx.credEnum.credSlots) : Keyed reached := by
  constructor
  · intro other inUse
    rw [table] at inUse ⊢
    by_cases here : other = slot
    · rw [here, Function.update_self] at inUse ⊢
      exact point (.inl inUse)
    · rw [Function.update_of_ne here] at inUse ⊢
      exact keyed.stored other inUse
  · intro other inside
    rw [table]
    by_cases here : other = slot
    · rw [here, Function.update_self]
      exact point (.inr (List.ne_nil_of_mem inside))
    · rw [Function.update_of_ne here]
      exact keyed.listed other (listing other inside)

theorem TableStep.keyed {request : Request} {ctx reached : Ctx} (step : TableStep crypto request ctx reached)
    (keyed : Keyed ctx) :
    Keyed reached := by
  cases step with
  | counts _ same =>
    constructor
    · intro slot inUse
      rw [same.credentials slot] at inUse ⊢
      exact keyed.stored slot inUse
    · intro slot inside
      rw [same.listing] at inside
      rw [same.credentials slot]
      exact keyed.listed slot inside
  | stores resident _ _ credentials _ listing =>
    exact keyed.put credentials (fun _ => residentOf_point resident) fun other inside => listing ▸ inside
  | frees resident _ _ credentials _ listing =>
    have point := residentOf_point resident
    exact keyed.put credentials (fun _ => point) fun other inside => listing ▸ inside
  | deletes _ _ credentials _ listing =>
    refine keyed.put credentials (fun given => ?_) fun other inside => absurd (listing ▸ inside) List.not_mem_nil
    rcases given with inUse | some?
    · cases inUse
    · exact absurd listing some?
  | renames _ credentials _ listing =>
    refine keyed.put credentials (fun given => ?_) fun other inside => absurd (listing ▸ inside) List.not_mem_nil
    rcases given with inUse | some?
    · exact keyed.stored _ inUse
    · exact absurd listing some?
  | lists _ credentials _ listing =>
    refine ⟨fun slot inUse => ?_, fun slot inside => ?_⟩
    · rw [credentials] at inUse ⊢
      exact keyed.stored slot inUse
    · rw [credentials]
      cases listing with
      | stops none =>
        rw [none] at inside
        exact absurd inside List.not_mem_nil
      | begins _ _ _ slots _ =>
        rw [slots, Ctx.slotsOf, List.mem_filter, Bool.and_eq_true] at inside
        exact keyed.stored slot inside.2.1
      | advances same _ => exact keyed.listed slot (same ▸ inside)
  | clears _ unused _ listing =>
    refine ⟨fun slot inUse => ?_, fun slot inside => ?_⟩
    · rw [unused slot] at inUse
      cases inUse
    · rw [listing] at inside
      exact absurd inside List.not_mem_nil

theorem process_shaped {ctx : Ctx} (keyed : Keyed ctx) (request : Request) : Shaped (process crypto request ctx).1 := by
  have dropped : Keyed ctx.dropAssertion := ⟨keyed.stored, keyed.listed⟩
  have shaped {start : Ctx} (same : Keyed start) :
    Proc.Ends (dispatch crypto request) start fun outcome _ => Shaped outcome := by
    have free {body : Command Reply} (shapes : Shapes body) : Proc.Ends body start fun outcome _ => Shaped outcome :=
      shapes start
    unfold dispatch
    split
    · exact free (shapes_makeCredential _ _)
    · exact free (shapes_getAssertion _ _)
    · exact free (shapes_getInfo _)
    · exact free (shapes_clientPin _ _)
    · exact free (.bind fun _ => .bind fun _ => .bind fun _ => .bind fun _ => .bind fun _ => .empty)
    · exact free (shapes_getNextAssertion _)
    · exact free (shapes_bioEnrollment _ _)
    · exact credentialManagement_shaped same _ _
    · exact free (.bind fun _ => .bind fun _ => .empty)
    · exact free (.fail _)
  have ended : Proc.Ends (process crypto request) ctx fun outcome _ => Shaped outcome := by
    apply Proc.Ends.ite
    · exact fun _ => shaped dropped
    · exact fun _ => shaped keyed
  exact ended

end

/-- If every credential that start-up loads has an uncompressed public key, every response
of every run that is not empty is exactly one item. -/
theorem responses_are_items (crypto : Crypto) (env : Env) (keypair : Keypair) (wrapKey : Buf 32) (disk : Option Bytes)
    (installed : Bool) (requests : List Request)
    (points : ∀ slot, ((fido2Init crypto env keypair wrapKey disk).credentials slot).inUse = true →
      IsPoint ((fido2Init crypto env keypair wrapKey disk).credentials slot).publicKey) :
    ∀ event ∈ (authenticator crypto).run ((fido2Init crypto env keypair wrapKey disk).setUvCallback installed) requests,
      Shaped event.outcome := by
  have start : Keyed ((fido2Init crypto env keypair wrapKey disk).setUvCallback installed) := by
    refine ⟨points, fun slot inside => ?_⟩
    have loaded : Proc.Keeps (fun ctx => ctx.credEnum.credSlots) (loadCredentials crypto env) :=
      keeps_loadCredentials fun _ _ _ _ _ _ => rfl
    have none : ((fido2Init crypto env keypair wrapKey disk).setUvCallback installed).credEnum.credSlots = [] :=
      loaded (.fresh env keypair wrapKey disk)
    rw [none] at inside
    exact absurd inside List.not_mem_nil
  rw [← throughout_iff]
  refine Machine.run_every (fun _ ctx => Keyed ctx) ?_ ?_ start requests
  · intro past ctx request keyed
    exact (process_table crypto request ctx).keyed keyed
  · intro past ctx request keyed
    exact process_shaped keyed request

/-- The file that a registration leaves. -/
def registeredFile : Option Bytes := (process tagCipher (registerRequest 1 1) startCtx).2.disk

/-- A start that finds a credential, and a run after it. -/
theorem responses_are_items_listingRun : (fido2Init tagCipher (plainEnv 0) plainKeypair (.zero 32)
    registeredFile).inUse.length = 1 ∧
    ∀ event ∈ (authenticator tagCipher).run
    ((fido2Init tagCipher (plainEnv 0) plainKeypair (.zero 32) registeredFile).setUvCallback true) listingRun,
      Shaped event.outcome := by
  have points : ∀ slot, ((fido2Init tagCipher (plainEnv 0) plainKeypair (.zero 32)
    registeredFile).credentials slot).inUse = true →
      IsPoint ((fido2Init tagCipher (plainEnv 0) plainKeypair (.zero 32) registeredFile).credentials slot).publicKey := by
    unfold IsPoint
    decide +kernel
  exact ⟨by decide +kernel, responses_are_items tagCipher (plainEnv 0) plainKeypair (.zero 32)
    registeredFile true listingRun points⟩

/-- A skip that wants more than there is was not given an item. -/
theorem not_oneItem_of_skip {bytes : Bytes} {problem : Error} {last : Decoder}
    (failed : skip (.init bytes) = (.error problem, last))
    (whole : last.rest = []) : ¬ OneItem bytes := by
  have settled := settles_skip (.init bytes) rfl
  unfold Proc.Ends at settled
  rw [failed] at settled
  obtain ⟨passed, here, -, halts⟩ := settled
  rw [whole, List.append_nil] at here
  have same : passed = bytes := here.symm
  rw [same] at halts
  intro item
  exact halts.incomplete parted_token (encodes_iff_leaves.mp item)

/-- A store in the old format with one credential, whose public key is all zeros. -/
def keylessStore : Bytes :=
  storeHeader 1 1 0 ++ PinState.zero.toBytes ++
    credentialBytes { Credential.zero with inUse := true, rp := { Rp.zero with idHash := fitTo 32 (ascii "a") } }

def keylessCtx : Ctx := (fido2Init tagCipher (plainEnv 0) plainKeypair (.zero 32) (some keylessStore)).setUvCallback true

/-- The map has one item less than it counts. -/
theorem keyless_credential_is_miscounted :
    ¬ ∀ (crypto : Crypto) (env : Env) (keypair : Keypair) (wrapKey : Buf 32) (disk : Option Bytes) (installed : Bool)
      (requests : List Request),
      ∀ event ∈ (authenticator crypto).run ((fido2Init crypto env keypair wrapKey disk).setUvCallback installed) requests,
        Shaped event.outcome := by
  intro claimed
  have all := claimed tagCipher (plainEnv 0) plainKeypair (.zero 32) (some keylessStore) true [listRequest]
  have seen : (((authenticator tagCipher).run keylessCtx [listRequest])[0]?).bind
    (fun event => (sentBytes event.outcome).map fun bytes =>
      (decide (bytes = []), (skip (.init bytes)).1.isOk, (skip (.init bytes)).2.rest)) =
        some (false, false, []) := by decide +kernel
  obtain ⟨event, there, sent⟩ := Option.bind_eq_some_iff.mp seen
  obtain ⟨bytes, answered, shown⟩ := Option.map_eq_some_iff.mp sent
  simp only [Prod.mk.injEq, decide_eq_false_iff_not] at shown
  obtain ⟨some?, stops, whole⟩ := shown
  have reply : event.outcome = .ok (.data bytes) := by
    unfold sentBytes at answered
    split at answered
    next same =>
      cases answered
      exact same
    · cases answered
  rcases ran : skip (.init bytes) with ⟨problem | done, last⟩
  · rw [ran] at whole
    exact not_oneItem_of_skip ran whole (all event (List.mem_of_getElem? there) _ reply some?)
  · rw [ran] at stops
    cases stops

end Hiya.Fido2
