import Hiya.Proofs.TableSteps
import Hiya.Proofs.UserVerification

/-! The party a request names, and the hash its credentials are filed under. A registration
keeps its id as a string, which ends at the first zero byte; an assertion hashes the bytes it
copied. Both copy 255 bytes at most. -/

namespace Hiya.Fido2
open Library Cbor
open Proc (Ends Ensures)

section
variable (crypto : Crypto)

def rpFieldNaming (key : Bytes) (acc : Rp × Bytes) : Parse (Rp × Bytes) :=
  if key = ascii "id" then do
    let text ← tstrValue
    pure ({ acc.1 with id := rpIdText text }, text)
  else do
    let rp ← rpField key acc.1
    pure (rp, acc.2)

def parseRpEntityNaming (acc : Rp × Bytes) : Parse (Rp × Bytes) := do
  let acc ← parseTextMap rpFieldNaming acc
  pure ({ acc.1 with idHash := crypto.sha256 acc.1.id.bytes }, acc.2)

def makeCredFieldNaming (key : UInt64) (acc : MakeCredParams × Bytes) : Parse (MakeCredParams × Bytes) :=
  if key.toNat = 2 then do
    let named ← parseRpEntityNaming crypto (acc.1.rp, acc.2)
    pure ({ acc.1 with rp := named.1, hasRp := true }, named.2)
  else do
    let params ← makeCredField crypto key acc.1
    pure (params, acc.2)

/-- The parameters of a registration and the last text it has under `id` in its `rp`. -/
def readMakeCredNaming (request : Bytes) : Except Status (MakeCredParams × Bytes) :=
  (readRequest idSlots excludeListKey (makeCredFieldNaming crypto) (.zero, []) ⟨Decoder.init request, .empty⟩).1

def getAssertionFieldNaming (key : UInt64) (acc : GetAssertionParams × Bytes) : Parse (GetAssertionParams × Bytes) :=
  if key.toNat = 1 then do
    let text ← tstrValue
    pure ({ acc.1 with
      rpId := .ofSlice 255 text
      rpIdHash := crypto.sha256 (Blob.ofSlice 255 text).bytes
      hasRp := true }, text)
  else do
    let params ← getAssertionField crypto key acc.1
    pure (params, acc.2)

def readGetAssertionNaming (request : Bytes) : Except Status (GetAssertionParams × Bytes) :=
  (readRequest idSlots allowListKey (getAssertionFieldNaming crypto) (.zero, []) ⟨Decoder.init request, .empty⟩).1

end

/-! Without the text they are the parsers. -/

section
variable {crypto : Crypto}

private theorem rpFieldNaming_fst (key : Bytes) (acc : Rp × Bytes) : Prod.fst <$> rpFieldNaming key acc =
    rpField key acc.1 := by
  unfold rpFieldNaming
  split
  next named =>
    unfold rpField
    rw [if_pos named, map_bind]
    rfl
  next =>
    rw [map_bind]
    exact bind_pure _

private theorem parseTextMap_fst {α β : Type} {field : Bytes → α × β → Parse (α × β)} {other : Bytes → α → Parse α}
    (each : ∀ key acc, Prod.fst <$> field key acc = other key acc.1) (acc : α × β) :
    Prod.fst <$> parseTextMap field acc = parseTextMap other acc.1 := by
  unfold parseTextMap parseTextPairs
  rw [map_bind]
  refine bind_congr fun count => Proc.map_repeatWith (fun acc => ?_) count acc
  rw [map_bind]
  refine bind_congr fun item => ?_
  cases item with
  | tstr key => exact each key acc
  | _ => rfl

private theorem parseRpEntityNaming_fst (acc : Rp × Bytes) : Prod.fst <$> parseRpEntityNaming crypto acc =
    parseRpEntity crypto acc.1 := by
  unfold parseRpEntityNaming parseRpEntity
  rw [map_bind, ← parseTextMap_fst rpFieldNaming_fst, bind_map_left]
  rfl

private theorem makeCredFieldNaming_fst (key : UInt64) (acc : MakeCredParams × Bytes) :
    Prod.fst <$> makeCredFieldNaming crypto key acc = makeCredField crypto key acc.1 := by
  unfold makeCredFieldNaming
  split
  next two =>
    unfold makeCredField
    rw [two, map_bind]
    change _ = (parseRpEntity crypto (acc.1.rp, acc.2).1 >>= fun rp => pure { acc.1 with rp, hasRp := true })
    rw [← parseRpEntityNaming_fst, bind_map_left]
    rfl
  next =>
    rw [map_bind]
    exact bind_pure _

private theorem getAssertionFieldNaming_fst (key : UInt64) (acc : GetAssertionParams × Bytes) :
    Prod.fst <$> getAssertionFieldNaming crypto key acc = getAssertionField crypto key acc.1 := by
  unfold getAssertionFieldNaming
  split
  next one =>
    unfold getAssertionField
    rw [one, map_bind]
    rfl
  next =>
    rw [map_bind]
    exact bind_pure _

private theorem readRequest_fst {α β γ : Type} {sink : DescriptorList γ} {listKey : UInt64} {field : UInt64 → α × β →
    Parse (α × β)}
    {other : UInt64 → α → Parse α} (each : ∀ key acc, Prod.fst <$> field key acc = other key acc.1) (start : α × β) :
    Prod.fst <$> readRequest sink listKey field start = readRequest sink listKey other start.1 := by
  unfold readRequest
  rw [map_bind]
  refine bind_congr fun count => Proc.map_repeatWith (fun acc => ?_) count start
  rw [map_bind]
  refine bind_congr fun key => ?_
  split
  · rw [map_bind]
    rfl
  · unfold onDec
    rw [Proc.map_zoom, each]

/-- The text a registration that is accepted names its party with. -/
def RegistersFor (crypto : Crypto) (request : Bytes) (text : Bytes) (params : MakeCredParams) : Prop :=
  readMakeCredNaming crypto request = .ok (params, text) ∧ makeCredMandatory params = .ok ()

/-- The text an assertion that is accepted names its party with. -/
def AssertsFor (crypto : Crypto) (request : Bytes) (text : Bytes) (params : GetAssertionParams) : Prop :=
  readGetAssertionNaming crypto request = .ok (params, text) ∧ getAssertionMandatory params = .ok ()

private theorem read_fst {α : Type} {body : Collect IdList (α × Bytes)} {other : Collect IdList α}
    (same : Prod.fst <$> body = other)
    {scan : Scan IdList} {value : α} {text : Bytes} (read : (body scan).1 = .ok (value, text)) :
    other scan = (.ok value, (body scan).2) := by
  rw [← same, Proc.map_apply, read]
  rfl

private theorem registersFor_parsed {request text : Bytes} {params : MakeCredParams}
    (named : RegistersFor crypto request text params) :
    ∃ excludeList, parseMakeCredParams crypto request = .ok (params, excludeList) := by
  have plain := read_fst (readRequest_fst makeCredFieldNaming_fst (.zero, [])) named.1
  unfold parseMakeCredParams
  rw [plain]
  dsimp only
  rw [named.2]
  exact ⟨_, rfl⟩

private theorem assertsFor_parsed {request text : Bytes} {params : GetAssertionParams}
    (named : AssertsFor crypto request text params) :
    ∃ allowList, parseGetAssertionParams crypto request = .ok (params, allowList) := by
  have plain := read_fst (readRequest_fst getAssertionFieldNaming_fst (.zero, [])) named.1
  unfold parseGetAssertionParams
  rw [plain]
  dsimp only
  rw [named.2]
  exact ⟨_, rfl⟩

private theorem ensures_parseTextMap {α : Type} {field : Bytes → α → Parse α} {invariant : α → Prop}
    (each : ∀ key acc, invariant acc → Ensures (field key acc) invariant) {acc : α} (holds : invariant acc) :
    Ensures (parseTextMap field acc) invariant := by
  refine .after fun count => .repeatWith (fun acc holds => .after fun item => ?_) count acc holds
  cases item with
  | tstr key => exact each key acc holds
  | _ => exact .after fun _ => .pure holds

private theorem ensures_readRequest {α : Type} {listKey : UInt64} {field : UInt64 → α → Parse α} {invariant : α → Prop}
    (each : ∀ key acc, invariant acc → Ensures (field key acc) invariant) {start : α} (holds : invariant start) :
    Ensures (readRequest idSlots listKey field start) invariant := by
  refine .after fun count => .repeatWith (fun acc holds => .after fun key => .ite (fun _ => ?_) fun _ => ?_) count start holds
  · exact .after fun _ => .pure holds
  · intro scan value last done
    unfold onDec Proc.zoom at done
    rcases outcome : field key acc scan.dec with ⟨problem | read, reached⟩ <;> rw [outcome] at done <;> cases done
    exact each key acc holds scan.dec _ reached outcome

structure PartyOf (crypto : Crypto) (acc : MakeCredParams × Bytes) : Prop where
  id : acc.1.rp.id = rpIdText acc.2
  hashed : acc.1.hasRp = true → acc.1.rp.idHash = crypto.sha256 (rpIdText acc.2).bytes

private theorem makeCredField_keeps_rp {key : UInt64} (other : key.toNat ≠ 2) (params : MakeCredParams) :
    Ensures (makeCredField crypto key params) fun after => after.rp = params.rp ∧ after.hasRp = params.hasRp := by
  unfold makeCredField
  split
  · exact .after fun _ => .pure ⟨rfl, rfl⟩
  next two => exact absurd two other
  · exact .after fun _ => .pure ⟨rfl, rfl⟩
  · exact .after fun _ => .pure ⟨rfl, rfl⟩
  · refine ensures_parseTextMap (fun key acc holds => ?_) ⟨rfl, rfl⟩
    refine .ite (fun _ => .after fun level => .ite (fun _ => .fail) fun _ => .pure holds) fun _ => .ite (fun _ => ?_)
      fun _ => ?_
    · exact .after fun _ => .pure holds
    · exact .after fun _ => .pure holds
  · refine ensures_parseTextMap (fun key acc holds => .after fun value => ?_) ⟨rfl, rfl⟩
    exact .ite (fun _ => .pure holds) fun _ => .ite (fun _ => .pure holds) fun _ => .pure holds
  · exact .after fun _ => .pure ⟨rfl, rfl⟩
  · exact .after fun _ => .pure ⟨rfl, rfl⟩
  · exact .after fun _ => .pure ⟨rfl, rfl⟩

private theorem partyOf_field (key : UInt64) (acc : MakeCredParams × Bytes) (party : PartyOf crypto acc) :
    Ensures (makeCredFieldNaming crypto key acc) (PartyOf crypto) := by
  refine .ite (fun two => ?_) fun other => ?_
  · have read : Ensures (parseRpEntityNaming crypto (acc.1.rp, acc.2)) fun named =>
        named.1.id = rpIdText named.2 ∧ named.1.idHash = crypto.sha256 (rpIdText named.2).bytes := by
      have pairs (key : Bytes) (named : Rp × Bytes) (same : named.1.id = rpIdText named.2) :
          Ensures (rpFieldNaming key named) fun named => named.1.id = rpIdText named.2 := by
        refine .ite (fun _ => .after fun text => .pure rfl) fun unnamed => ?_
        have kept : Ensures (rpField key named.1) fun rp => rp.id = named.1.id := by
          unfold rpField
          rw [if_neg unnamed]
          exact .ite (fun _ => .after fun _ => .pure rfl) fun _ => .after fun _ => .pure rfl
        exact .bind kept fun rp still => .pure (still.trans same)
      refine .bind (ensures_parseTextMap pairs party.id) fun named same => ?_
      exact .pure ⟨same, congrArg (fun id => crypto.sha256 id.bytes) same⟩
    exact .bind read fun named holds => .pure ⟨holds.1, fun _ => holds.2⟩
  · refine .bind (makeCredField_keeps_rp other acc.1) fun params kept => .pure ⟨?_, fun has => ?_⟩
    · exact (congrArg Rp.id kept.1).trans party.id
    · exact (congrArg Rp.idHash kept.1).trans (party.hashed (kept.2.symm.trans has))

private theorem getAssertionField_keeps_rp {key : UInt64} (other : key.toNat ≠ 1) (params : GetAssertionParams) :
    Ensures (getAssertionField crypto key params) fun after => after.rpIdHash = params.rpIdHash ∧
    after.hasRp = params.hasRp := by
  unfold getAssertionField
  split
  next one => exact absurd one other
  · exact .after fun _ => .pure ⟨rfl, rfl⟩
  · refine ensures_parseTextMap (fun key acc holds => .after fun value => ?_) ⟨rfl, rfl⟩
    exact .ite (fun _ => .pure holds) fun _ => .ite (fun _ => .pure holds) fun _ => .pure holds
  · exact .after fun _ => .pure ⟨rfl, rfl⟩
  · exact .after fun _ => .pure ⟨rfl, rfl⟩
  · exact .after fun _ => .pure ⟨rfl, rfl⟩

/-- A registration hashes the text up to its first zero byte, within the first 255. -/
theorem registersFor_hash {request text : Bytes} {params : MakeCredParams} (named : RegistersFor crypto request text params) :
    params.rp.idHash = crypto.sha256 ((text.take 255).takeWhile (· ≠ 0)) := by
  have party : PartyOf crypto (params, text) := by
    have start : PartyOf crypto (.zero, []) := ⟨rfl, fun has => by cases has⟩
    exact ensures_readRequest partyOf_field start _ _ _ (Prod.ext named.1 rfl)
  apply party.hashed
  have mandatory := named.2
  unfold makeCredMandatory at mandatory
  cases has : params.hasRp with
  | true => rfl
  | false =>
    rw [has] at mandatory
    split at mandatory <;> cases mandatory

/-- An assertion hashes the first 255 bytes, zeros included. -/
theorem assertsFor_hash {request text : Bytes} {params : GetAssertionParams} (named : AssertsFor crypto request text params) :
    params.rpIdHash = crypto.sha256 (text.take 255) := by
  have party : params.hasRp = true → params.rpIdHash = crypto.sha256 (text.take 255) := by
    have each (key : UInt64) (acc : GetAssertionParams × Bytes)
        (holds : acc.1.hasRp = true → acc.1.rpIdHash = crypto.sha256 (acc.2.take 255)) :
        Ensures (getAssertionFieldNaming crypto key acc) fun acc => acc.1.hasRp = true →
          acc.1.rpIdHash = crypto.sha256 (acc.2.take 255) := by
      refine .ite (fun one => .after fun text => .pure fun _ => rfl) fun other => ?_
      refine .bind (getAssertionField_keeps_rp other acc.1) fun params kept => .pure fun has => ?_
      exact kept.1.trans (holds (kept.2.symm.trans has))
    have start : (GetAssertionParams.zero, ([] : Bytes)).1.hasRp = true →
        (GetAssertionParams.zero, ([] : Bytes)).1.rpIdHash = crypto.sha256 (([] : Bytes).take 255) := fun has => by cases has
    exact ensures_readRequest each start _ _ _ (Prod.ext named.1 rfl)
  apply party
  have mandatory := named.2
  unfold getAssertionMandatory at mandatory
  cases has : params.hasRp with
  | true => rfl
  | false =>
    rw [has] at mandatory
    cases mandatory

def signedHash : Except Error Bytes → Option Bytes
  | .ok data => some (data.take 32)
  | .error _ => none

def SignsFor (hash : Buf 32) : Except Status Reply → Prop
  | .ok (.registered _ _ bytes) => signedHash (registrationAuthData (Decoder.init bytes)).1 = some hash.bytes
  | .ok (.asserted _ _ _ bytes) => signedHash (assertionAuthData (Decoder.init bytes)).1 = some hash.bytes
  | _ => True

/-- Every credential that the registration stores, and every response it signs, is for this hash. -/
structure MakesUnder (crypto : Crypto) (request : Request) (hash : Buf 32) : Prop where
  stores : ∀ ctx cred, residentOf crypto request ctx = some cred → cred.rp.idHash = hash
  signs : ∀ ctx, SignsFor hash (process crypto request ctx).1

/-- Every slot that the assertion takes from the table, and every response it signs, is for this hash. -/
structure AssertsUnder (crypto : Crypto) (request : Request) (hash : Buf 32) : Prop where
  finds : ∀ ctx found slots, lookup crypto request ctx = some found →
    ctx.select crypto found.params.rpIdHash found.uv found.allowList = .table slots →
      ∀ slot ∈ slots, (ctx.credentials slot).rp.idHash = hash
  signs : ∀ ctx, SignsFor hash (process crypto request ctx).1

private theorem signedHash_front {hash : Buf 32} {rest : Bytes} : signedHash (.ok (hash.bytes ++ rest)) = some hash.bytes :=
  congrArg some (List.take_left' (Buf.length_bytes hash))

private theorem signedHash_of_built {cap : Nat} {hash : Buf 32} {flags : UInt8} {signCount : UInt32}
    {attested : Option (CredentialId × Buf 65)}
    {data : Bytes} (built : buildAuthData cap hash flags signCount attested = some data) (more : Bytes) :
    signedHash (.ok (data ++ more)) = some hash.bytes := by
  obtain ⟨⟨rest, rfl⟩, -⟩ := buildAuthData_front built
  simp only [List.append_assoc]
  exact signedHash_front

private theorem signedHash_registration {params : MakeCredParams} {uv : Bool} {signCount : UInt32}
    {credId : CredentialId} {pubkey : Buf 65}
    {data : Bytes} (built : registrationData params uv signCount credId pubkey = some data) :
    signedHash (.ok data) = some params.rp.idHash.bytes := by
  obtain ⟨front, made, built⟩ := Option.bind_eq_some_iff.mp built
  split at built
  · obtain ⟨extensions, -, built⟩ := Option.bind_eq_some_iff.mp built
    cases built
    exact signedHash_of_built made extensions
  · cases built
    have signed := signedHash_of_built made []
    rwa [List.append_nil] at signed

section
variable {request : Request} {ctx : Ctx}

private theorem register_signs {env : Env} {params : MakeCredParams} {uv : Bool} {keypair : Keypair} {id : CredentialId}
    {hmacSecret : Option (Buf 32)} {capacity : Nat} :
    Ends (register crypto env params uv keypair id hmacSecret capacity)
    ctx fun outcome _ => SignsFor params.rp.idHash outcome := by
  apply Ends.get
  apply Ends.andThen
  refine ends_need True.intro fun authData built => ends_need True.intro fun signature _ => ?_
  have sends (reached : Ctx) : Ends (sendRegistration id (ctx.globalSignCount + 1) authData signature capacity) reached
      fun outcome _ => SignsFor params.rp.idHash outcome := by
    refine ends_need True.intro fun der _ => ends_need True.intro fun bytes sent => ?_
    change signedHash (registrationAuthData (Decoder.init bytes)).1 = _
    rw [registration_reads_back (registrationData_of built) sent]
    exact signedHash_registration built
  apply Ends.ite
  · exact fun _ => ends_any (fun _ _ => True.intro) fun _ reached => sends reached
  · exact fun _ => sends _

private theorem buildAssertionResponse_signs {env : Env} {holder : Option CredSlot} {privkey : Buf 32} {id : CredentialId}
    {rpIdHash clientDataHash : Buf 32} {flags : UInt8} {total : Nat} {includeUser : Bool} {capacity : Nat} :
    Ends (buildAssertionResponse crypto env holder privkey id rpIdHash clientDataHash flags total includeUser capacity)
      ctx fun outcome _ => SignsFor rpIdHash outcome := by
  apply Ends.get
  apply Ends.andThen
  refine ends_need True.intro fun authData built => ends_need True.intro fun signature _ => ends_need True.intro fun der _ => ?_
  dsimp only
  split
  next bytes sent =>
    change signedHash (assertionAuthData (Decoder.init bytes)).1 = _
    rw [assertion_reads_back (assertionData_of built) sent]
    have signed := signedHash_of_built built []
    rwa [List.append_nil] at signed
  · exact True.intro

private theorem makesUnder {params : MakeCredParams} {excludeList : IdList} (command : request.command = .makeCredential)
    (parsed : parseMakeCredParams crypto request.body = .ok (params, excludeList)) :
    MakesUnder crypto request params.rp.idHash := by
  constructor
  · intro ctx cred resident
    unfold residentOf at resident
    rw [if_neg (not_not.mpr command), parsed] at resident
    dsimp only at resident
    split at resident
    · cases resident
    split at resident
    · cases resident
    · simp only [Option.bind_eq_bind, Option.bind_eq_some_iff] at resident
      obtain ⟨drawn, -, secret, -, authData, -, signature, -, made⟩ := resident
      cases made
      rfl
  · intro ctx
    have ended : Ends (process crypto request) ctx fun outcome _ => SignsFor params.rp.idHash outcome := by
      apply ends_process (by rw [command]; decide)
      unfold dispatch
      rw [show Cmd.ofByte request.cmd = .makeCredential from command]
      refine ends_ofExcept (fun _ => True.intro) fun read again => ?_
      cases parsed.symm.trans again
      apply Ends.get
      apply Ends.ite
      · exact fun _ => True.intro
      intro _
      refine ends_any (fun _ _ => True.intro) fun uv reached => ends_need True.intro fun drawn _ => ?_
      exact ends_any (fun _ _ => True.intro) fun secret reached => register_signs
    exact ended

private theorem selected_rp {rpIdHash : Buf 32} {uv : Bool} {allowList : IdList} {slots : List CredSlot}
    (chosen : ctx.select crypto rpIdHash uv allowList = .table slots) : ∀ slot ∈ slots,
    (ctx.credentials slot).rp.idHash = rpIdHash := by
  unfold Ctx.select at chosen
  split at chosen
  · have allowed : ∀ id ∈ allowList.ids, ∀ slot ∈ ctx.allowedSlots rpIdHash uv id,
      (ctx.credentials slot).rp.idHash = rpIdHash := by
      intro id _ slot inside
      simp only [Ctx.allowedSlots, List.mem_filter, Bool.and_eq_true, decide_eq_true_eq] at inside
      exact inside.2.1.1.2
    rcases selectAllowed_cases allowed [] (by simp) with ⟨id, key, unwrapped, -⟩ | ⟨found, table, -, good⟩
    · cases unwrapped.symm.trans chosen
    · cases table.symm.trans chosen
      exact good
  · cases chosen
    intro slot inside
    simp only [Ctx.discoverableSlots, List.mem_filter, Bool.and_eq_true, decide_eq_true_eq] at inside
    exact inside.2.1.1.2

private theorem assertsUnder {params : GetAssertionParams} {allowList : IdList} (command : request.command = .getAssertion)
    (parsed : parseGetAssertionParams crypto request.body = .ok (params, allowList)) :
    AssertsUnder crypto request params.rpIdHash := by
  constructor
  · intro ctx found slots looked chosen
    unfold lookup at looked
    rw [if_neg (not_not.mpr command), parsed] at looked
    dsimp only at looked
    split at looked
    · cases looked
    · cases looked
      exact selected_rp chosen
  · intro ctx
    have ended : Ends (process crypto request) ctx fun outcome _ => SignsFor params.rpIdHash outcome := by
      apply ends_process (by rw [command]; decide)
      unfold dispatch
      rw [show Cmd.ofByte request.cmd = .getAssertion from command]
      refine ends_ofExcept (fun _ => True.intro) fun read again => ?_
      cases parsed.symm.trans again
      refine ends_any (fun _ _ => True.intro) fun uv reached => ?_
      apply Ends.andThen
      apply Ends.get
      split
      · exact ends_thenSave buildAssertionResponse_signs
      · exact True.intro
      · apply Ends.andThen
        apply Ends.get
        exact ends_thenSave buildAssertionResponse_signs
    exact ended

end

/-- A text that neither buffer changes. -/
def PlainId (text : Bytes) : Prop := text.length ≤ 255 ∧ 0 ∉ text

instance (text : Bytes) : Decidable (PlainId text) := inferInstanceAs (Decidable (_ ∧ _))

/-- No two of these texts have the same hash. -/
def NoCollision (crypto : Crypto) (texts : List Bytes) : Prop :=
  ∀ first ∈ texts, ∀ second ∈ texts, crypto.sha256 first = crypto.sha256 second → first = second

instance (crypto : Crypto) (texts : List Bytes) : Decidable (NoCollision crypto texts) :=
  inferInstanceAs (Decidable (∀ first ∈ texts, ∀ second ∈ texts, crypto.sha256 first = crypto.sha256 second → first = second))

/-- What the two commands hash of a text. -/
def hashedTexts (text : Bytes) : List Bytes := [text, text.take 255, (text.take 255).takeWhile (· ≠ 0)]

private theorem takeWhile_of_clean {text : Bytes} (clean : 0 ∉ text) : text.takeWhile (· ≠ 0) = text := by
  rw [List.takeWhile_eq_self_iff]
  intro byte inside
  rw [decide_eq_true_iff]
  rintro rfl
  exact clean inside

theorem PlainId.cut {text : Bytes} (plain : PlainId text) : (text.take 255).takeWhile (· ≠ 0) = text := by
  rw [List.take_of_length_le plain.1, takeWhile_of_clean plain.2]

private theorem plainId_of_cut {text : Bytes} (same : (text.take 255).takeWhile (· ≠ 0) = text) : PlainId text := by
  have short : ((text.take 255).takeWhile (· ≠ 0)).length ≤ 255 :=
    (List.takeWhile_prefix _).length_le.trans (by rw [List.length_take]; omega)
  have clean : 0 ∉ (text.take 255).takeWhile (· ≠ 0) := fun inside => by simpa using List.mem_takeWhile_imp inside
  rw [same] at short clean
  exact ⟨short, clean⟩

/-- For one text, the hash under which a registration stores and signs and the hash that an
assertion looks up and signs are both that of the text exactly when it is at most 255 bytes
long and has no zero byte. Among such texts, two different ones share nothing. -/
theorem rp_hashes_agree_iff (crypto : Crypto) (makes asserts : Request) (text other : Bytes) (registered : MakeCredParams)
    (asserted : GetAssertionParams) (registers : makes.command = .makeCredential) (gets : asserts.command = .getAssertion)
    (named : RegistersFor crypto makes.body text registered) (wanted : AssertsFor crypto asserts.body other asserted)
    (apart : NoCollision crypto (hashedTexts text ++ hashedTexts other)) :
    MakesUnder crypto makes registered.rp.idHash ∧ AssertsUnder crypto asserts asserted.rpIdHash ∧
      (text = other → ((registered.rp.idHash = crypto.sha256 text ∧ asserted.rpIdHash = crypto.sha256 text) ↔ PlainId text)) ∧
      (PlainId text → PlainId other → (registered.rp.idHash = asserted.rpIdHash ↔ text = other)) := by
  obtain ⟨excludeList, parsed⟩ := registersFor_parsed named
  obtain ⟨allowList, read⟩ := assertsFor_parsed wanted
  refine ⟨makesUnder registers parsed, assertsUnder gets read, ?_, ?_⟩
  · rintro rfl
    rw [registersFor_hash named, assertsFor_hash wanted]
    constructor
    · rintro ⟨cut, -⟩
      apply plainId_of_cut
      exact apart _ (by simp [hashedTexts]) _ (by simp [hashedTexts]) cut
    · intro plain
      rw [plain.cut, List.take_of_length_le plain.1]
      exact ⟨rfl, rfl⟩
  · intro plain also
    rw [registersFor_hash named, assertsFor_hash wanted, plain.cut, List.take_of_length_le also.1]
    constructor
    · exact apart _ (by simp [hashedTexts]) _ (by simp [hashedTexts])
    · rintro rfl
      rfl

end

/-! Requests of one party. -/

/-- A registration whose `rp` has this text for its id. -/
def namedMakeRequest (text : Bytes) : Request :=
  plainRequest 0x01 0 ([0xA4, 0x01, 0x58, 0x20] ++ List.replicate 32 0 ++ [0x02, 0xA1, 0x62, 0x69, 0x64,
    0x60 + UInt8.ofNat text.length] ++ text ++
    [0x03, 0xA1, 0x62, 0x69, 0x64, 0x41, 0x01] ++ [0x04, 0x81, 0xA2, 0x63] ++ ascii "alg" ++ [0x26, 0x64] ++
      ascii "type" ++ [0x6A] ++
    ascii "public-key")

def namedGetRequest (text : Bytes) : Request :=
  plainRequest 0x02 0 ([0xA2, 0x01, 0x60 + UInt8.ofNat text.length] ++ text ++ [0x02, 0x58, 0x20] ++ List.replicate 32 0)

def zeroText : Bytes := [0x61, 0x00, 0x62]

private theorem named_of_toOption {α : Type} {outcome : Except Status (α × Bytes)} {mandatory : α → Except Status Unit}
    {text : Bytes}
    (read : outcome.toOption.any (fun pair => pair.2 = text && (mandatory pair.1).isOk) = true) :
    ∃ params, outcome = .ok (params, text) ∧ mandatory params = .ok () := by
  cases outcome with
  | error problem => cases read
  | ok pair =>
    obtain ⟨same, fine⟩ := Bool.and_eq_true_iff.mp read
    obtain rfl : pair.2 = text := of_decide_eq_true same
    refine ⟨pair.1, rfl, ?_⟩
    cases checked : mandatory pair.1 with
    | error problem =>
      rw [checked] at fine
      cases fine
    | ok done => rfl

theorem rp_hashes_agree_plain : PlainId (ascii "ab") ∧ ∃ (registered : MakeCredParams) (asserted : GetAssertionParams),
    MakesUnder tagCipher (namedMakeRequest (ascii "ab")) registered.rp.idHash ∧
      AssertsUnder tagCipher (namedGetRequest (ascii "ab")) asserted.rpIdHash ∧ registered.rp.idHash = asserted.rpIdHash := by
  have plain : PlainId (ascii "ab") := by decide
  obtain ⟨registered, named⟩ : ∃ params, RegistersFor tagCipher (namedMakeRequest (ascii "ab")).body (ascii "ab") params :=
    named_of_toOption (by decide +kernel)
  obtain ⟨asserted, wanted⟩ : ∃ params, AssertsFor tagCipher (namedGetRequest (ascii "ab")).body (ascii "ab") params :=
    named_of_toOption (by decide +kernel)
  have apart : NoCollision tagCipher (hashedTexts (ascii "ab") ++ hashedTexts (ascii "ab")) := by decide +kernel
  obtain ⟨makes, gets, -, share⟩ := rp_hashes_agree_iff tagCipher (namedMakeRequest (ascii "ab"))
    (namedGetRequest (ascii "ab"))
    (ascii "ab") (ascii "ab") registered asserted rfl rfl named wanted apart
  exact ⟨plain, registered, asserted, makes, gets, (share plain plain).mpr rfl⟩

/-- Under a text with a zero byte the two commands look in different places. -/
theorem zero_byte_parts_rp_hashes :
    ¬ ∀ (crypto : Crypto) (makes asserts text : Bytes) (registered : MakeCredParams) (asserted : GetAssertionParams),
      NoCollision crypto (hashedTexts text) → RegistersFor crypto makes text registered →
      AssertsFor crypto asserts text asserted →
        registered.rp.idHash = asserted.rpIdHash ∧ registered.rp.idHash = crypto.sha256 text := by
  intro claimed
  obtain ⟨registered, named⟩ : ∃ params, RegistersFor tagCipher (namedMakeRequest zeroText).body zeroText params :=
    named_of_toOption (by decide +kernel)
  obtain ⟨asserted, wanted⟩ : ∃ params, AssertsFor tagCipher (namedGetRequest zeroText).body zeroText params :=
    named_of_toOption (by decide +kernel)
  have apart : NoCollision tagCipher (hashedTexts zeroText) := by decide +kernel
  have equal := (claimed tagCipher _ _ zeroText registered asserted apart named wanted).2
  rw [registersFor_hash named] at equal
  revert equal
  decide +kernel

end Hiya.Fido2
