import Hiya.Proofs.CredentialStore
import Hiya.Proofs.Frames
import Hiya.Proofs.SshEnrollment

/-! The two ways to the key of an SSH credential. Loading puts the point together from the
coordinates in the COSE key; enrolment returns the COSE key itself. -/

namespace Hiya.Ssh
open Library Cbor Fido2

section
variable {α : Type} {take : Item → α → α}

private theorem reads_idPair {value : Item} {bytes : Bytes} (acc : α) (reads : Reads decodeNext bytes value) :
    Reads (idPair take acc) ((headBytes .tstr 2 ++ ascii "id") ++ bytes) (take value acc) :=
  (reads_nextTstr (ascii "id") (by decide)).bind (reads.map (fun value => take value acc))

private theorem reads_otherPair {bytes : Bytes} (acc : α) (key : Bytes) (small : key.length < 2 ^ 64)
    (other : key ≠ ascii "id")
    (passed : Reads skip bytes ()) : Reads (idPair take acc) ((headBytes .tstr key.length ++ key) ++ bytes) acc := by
  refine (reads_nextTstr key small).bind ?_
  have differs : Item.tstr key ≠ Item.tstr (ascii "id") := fun same => other (Item.tstr.inj same)
  rw [if_neg differs]
  exact reads_passOver acc passed

end

private theorem text_small {cap : Nat} (text : CText cap) (room : cap ≤ 256) : text.bytes.length < 2 ^ 64 := by
  have short := text.short
  omega

private theorem reads_userMap (user : User) (scan : CredentialScan) :
    Reads (idMap takeUserId scan) (userBytes user) { scan with userId := user.id.bytes } := by
  have short : user.id.bytes.length ≤ 64 := user.id.short
  have whole : takeUserId (.bstr user.id.bytes) scan = { scan with userId := user.id.bytes } := by
    unfold takeUserId
    dsimp only
    rw [List.take_of_length_le short]
  have id : Reads (idPair takeUserId scan) _ (takeUserId (.bstr user.id.bytes) scan) :=
    reads_idPair scan (reads_nextBstr user.id.bytes (by omega))
  rw [whole] at id
  have name : Reads (idPair takeUserId { scan with userId := user.id.bytes }) ((headBytes .tstr 4 ++ ascii "name") ++ _) _ :=
    reads_otherPair _ (ascii "name") (by decide) (by decide)
      (reads_skipTstr user.name.bytes (text_small user.name (by decide)) _)
  have displayName : Reads (idPair takeUserId { scan with userId := user.id.bytes })
    ((headBytes .tstr 11 ++ ascii "displayName") ++ _) _ :=
    reads_otherPair _ (ascii "displayName") (by decide) (by decide)
      (reads_skipTstr user.displayName.bytes (text_small user.displayName (by decide)) _)
  have rounds : Reads (Proc.repeatTill 3 (idPair takeUserId) scan : Decode _) _ { scan with userId := user.id.bytes } :=
    id.round (name.round (displayName.round (.rounds _)))
  rw [List.append_assoc (_ ++ ascii "id"), List.append_assoc (_ ++ ascii "name"),
    List.append_assoc (_ ++ ascii "displayName")] at rounds
  refine (readsAhead_map 3 (by decide)).bind ?_ rounds
  simp only [List.length_append]
  have named : (ascii "displayName").length = 11 := by decide
  omega

/-- The buffer for an id is as long as an id can be. -/
theorem reads_descriptorMap (credId : CredentialId) (scan : CredentialScan) :
    Reads (idMap takeCredId scan) (descriptorBytes credId) { scan with credId := credId.bytes } := by
  have short : credId.bytes.length ≤ 128 := credId.short
  have whole : takeCredId (.bstr credId.bytes) scan = { scan with credId := credId.bytes } := by
    unfold takeCredId
    dsimp only
    rw [List.take_of_length_le short]
  have id : Reads (idPair takeCredId scan) _ (takeCredId (.bstr credId.bytes) scan) :=
    reads_idPair scan (reads_nextBstr credId.bytes (by omega))
  rw [whole] at id
  have type : Reads (idPair takeCredId { scan with credId := credId.bytes }) ((headBytes .tstr 4 ++ ascii "type") ++
      (headBytes .tstr 10 ++ ascii "public-key")) _ :=
    reads_otherPair _ (ascii "type") (by decide) (by decide) (reads_skipTstr (ascii "public-key") (by decide) _)
  have rounds : Reads (Proc.repeatTill 2 (idPair takeCredId) scan : Decode _) _ { scan with credId := credId.bytes } :=
    id.round (type.round (.rounds _))
  rw [List.append_assoc (_ ++ ascii "id"), List.append_assoc (_ ++ ascii "type")] at rounds
  refine (readsAhead_map 2 (by decide)).bind ?_ rounds
  simp only [List.length_append]
  have typed : (ascii "public-key").length = 10 := by decide
  omega

private theorem sliceAt_eq_field {size start width : Nat} (buf : Buf size) (fits : start + width ≤ size) :
    sliceAt buf.bytes start width = buf.field start width fits := by
  apply Buf.ext
  rw [sliceAt_bytes (by rw [Buf.length_bytes]; exact fits)]
  rfl

/-- A buffer into which all parts of another one are stored is that other one. -/
theorem store_point (buf pubkey : Buf 65) :
    ((buf.store 0 (pubkey.field 0 1 form_fits) form_fits).store 1 (pubkey.field 1 32 first_fits) first_fits).store 33
      (pubkey.field 33 32 second_fits) second_fits = pubkey := by
  apply Buf.ext_getElem
  intro place inside
  rw [Buf.getElem?_store]
  by_cases low : place < 33
  · rw [if_pos low, Buf.getElem?_store]
    by_cases form : place < 1
    · rw [if_pos form, Buf.getElem?_store, if_neg (by omega), if_pos (by omega), Buf.getElem?_field _ _ _ (by omega)]
      congr 1
      omega
    · rw [if_neg form, if_pos (by omega), Buf.getElem?_field _ _ _ (by omega)]
      congr 1
      omega
  · rw [if_neg low, if_pos (by omega), Buf.getElem?_field _ _ _ (by omega)]
    congr 1
    omega

private theorem takeCoordinate_buf (offset : Nat) (fits : offset + 32 ≤ 65) (coordinate : Buf 32) (scan : CredentialScan) :
    takeCoordinate offset fits (.bstr coordinate.bytes) scan =
    { scan with pubkey := scan.pubkey.store offset coordinate fits } := by
  unfold takeCoordinate
  dsimp only
  rw [dif_pos coordinate.length_bytes]
  rfl

private theorem reads_coseKeyMap {pubkey : Buf 65} (point : IsPoint pubkey) (scan : CredentialScan) :
    Reads (coseKeyMap scan) (coseKeyBytes pubkey) { scan with pubkey, alg := some skEcdsa } := by
  have form : Buf.single 0x04 = pubkey.field 0 1 form_fits := by
    rw [← sliceAt_eq_field]
    exact Buf.ext point.symm
  let first := sliceAt pubkey.bytes 1 32
  let second := sliceAt pubkey.bytes 33 32
  let begun : CredentialScan := { scan with pubkey := scan.pubkey.store 0 (.single 0x04) form_fits }
  let typed : CredentialScan := { begun with alg := some skEcdsa }
  let half : CredentialScan := { typed with pubkey := typed.pubkey.store 1 first first_fits }
  have kty : Reads (coseKeyPair begun) (headBytes .uint 1 ++ headBytes .uint 2) begun :=
    (reads_nextUint 1).bind (reads_passOver begun (reads_skipUint 2 _))
  have alg : Reads (coseKeyPair begun) (headBytes .uint 3 ++ headBytes .negint 6) typed :=
    (reads_nextUint 3).bind ((reads_nextNegint 6 (by decide)).map (fun value => takeAlg value begun))
  have crv : Reads (coseKeyPair typed) (headBytes .negint 0 ++ headBytes .uint 1) typed :=
    (reads_nextNegint 0 (by decide)).bind (reads_passOver typed (reads_skipUint 1 _))
  have x : Reads (coseKeyPair typed) (headBytes .negint 1 ++ (headBytes .bstr first.bytes.length ++ first.bytes)) half := by
    refine (reads_nextNegint 1 (by decide)).bind ?_
    have read := (reads_nextBstr first.bytes (by rw [Buf.length_bytes]; decide)).map
      (fun value => takeCoordinate 1 first_fits value typed)
    rw [takeCoordinate_buf] at read
    exact read
  have y : Reads (coseKeyPair half) (headBytes .negint 2 ++ (headBytes .bstr second.bytes.length ++ second.bytes))
      { scan with pubkey, alg := some skEcdsa } := by
    refine (reads_nextNegint 2 (by decide)).bind ?_
    have read := (reads_nextBstr second.bytes (by rw [Buf.length_bytes]; decide)).map
      (fun value => takeCoordinate 33 second_fits value half)
    rw [takeCoordinate_buf] at read
    have whole : half.pubkey.store 33 second second_fits = pubkey := by
      have stored := store_point scan.pubkey pubkey
      rw [← form, ← sliceAt_eq_field, ← sliceAt_eq_field] at stored
      exact stored
    rw [whole] at read
    exact read
  have rounds : Reads (Proc.repeatTill 5 coseKeyPair begun : Decode _) _ { scan with pubkey, alg := some skEcdsa } :=
    kty.round (alg.round (crv.round (x.round (y.round (.rounds _)))))
  rw [List.append_assoc (headBytes .uint 1), List.append_assoc (headBytes .uint 3), List.append_assoc (headBytes .negint 0),
    List.append_assoc (headBytes .negint 1), List.append_assoc (headBytes .negint 2)] at rounds
  refine (readsAhead_map 5 (by decide)).bind ?_ rounds
  simp only [List.length_append, Buf.length_bytes]
  omega

def firstCredentialBytes (cred : Credential) (total level : UInt64) : Bytes :=
  headBytes .map 5 ++ ((headBytes .uint 6 ++ userBytes cred.user) ++ ((headBytes .uint 7 ++ descriptorBytes cred.credId) ++
    ((headBytes .uint 8 ++ coseKeyBytes cred.publicKey) ++ ((headBytes .uint 9 ++ headBytes .uint total.toNat) ++
      ((headBytes .uint 10 ++ headBytes .uint level.toNat) ++ [])))))

private theorem sends_credential {cred : Credential} (point : IsPoint cred.publicKey) (total level : UInt64) :
    Sends ([encodeMap 5] ++ credentialItems cred ++ [encodeUint 0x09, encodeUint total, encodeUint 0x0A, encodeUint level])
      (firstCredentialBytes cred total level) := by
  obtain ⟨items, made⟩ := cosePubkeyItems_isSome.mpr point
  unfold credentialItems
  rw [made]
  have user := (Sends.uint 6 .nil).append (sends_user cred.user)
  have descriptor := (user.append (.uint 7 .nil)).append (sends_descriptor cred.credId)
  have key := (descriptor.append (.uint 8 .nil)).append (sends_coseKey made)
  have whole := ((Sends.map 5 .nil).append key).append (.uint 9 (.uint total (.uint 0x0A (.uint level .nil))))
  simp only [List.append_assoc, List.append_nil] at whole
  unfold firstCredentialBytes
  simp only [List.append_assoc, List.append_nil]
  exact whole

private theorem reads_credential {cred : Credential} (point : IsPoint cred.publicKey) (total level : UInt64) :
    Reads (scanMap credentialPair .zero) (firstCredentialBytes cred total level)
      { pubkey := cred.publicKey, credId := cred.credId.bytes, userId := cred.user.id.bytes, totalCreds := total, alg := some skEcdsa } := by
  let start : CredentialScan := .zero
  let named : CredentialScan := { start with userId := cred.user.id.bytes }
  let found : CredentialScan := { named with credId := cred.credId.bytes }
  let keyed : CredentialScan := { found with pubkey := cred.publicKey, alg := some skEcdsa }
  let counted : CredentialScan := { keyed with totalCreds := total }
  have user : Reads (credentialPair start) (headBytes .uint 6 ++ userBytes cred.user) named :=
    (reads_uint 6).bind (reads_userMap cred.user start)
  have descriptor : Reads (credentialPair named) (headBytes .uint 7 ++ descriptorBytes cred.credId) found :=
    (reads_uint 7).bind (reads_descriptorMap cred.credId named)
  have key : Reads (credentialPair found) (headBytes .uint 8 ++ coseKeyBytes cred.publicKey) keyed :=
    (reads_uint 8).bind (reads_coseKeyMap point found)
  have number : Reads (decodeUint.withDefault keyed.totalCreds : Decode _) (headBytes .uint total.toNat) total :=
    (reads_uint total).withDefault
  have count : Reads (credentialPair keyed) (headBytes .uint 9 ++ headBytes .uint total.toNat) counted :=
    (reads_uint 9).bind (number.map fun total : UInt64 => ({ keyed with totalCreds := total } : CredentialScan))
  have protection : Reads (credentialPair counted) (headBytes .uint 10 ++ headBytes .uint level.toNat) counted :=
    (reads_uint 10).bind (reads_passOver counted (reads_skipUint level _))
  have rounds : Reads (Proc.repeatTill 5 credentialPair start : Decode _) _ counted :=
    user.round (descriptor.round (key.round (count.round (protection.round (.rounds counted)))))
  refine (readsAhead_map 5 (by decide)).bind ?_ rounds
  have heads (major : Major) (value : Nat) : 0 < (headBytes major value).length :=
    List.length_pos_iff.mpr (headBytes_ne_nil major value)
  have six := heads .uint 6
  have seven := heads .uint 7
  have eight := heads .uint 8
  simp only [userBytes, List.length_append]
  have named : (ascii "displayName").length = 11 := by decide
  omega

private theorem scanResponse_credential {cred : Credential} (point : IsPoint cred.publicKey) (total level : UInt64) :
    scanResponse credentialPair .zero (firstCredentialBytes cred total level) =
      some { pubkey := cred.publicKey, credId := cred.credId.bytes, userId := cred.user.id.bytes, totalCreds := total, alg := some skEcdsa } := by
  have read := reads_credential point total level (Decoder.init (firstCredentialBytes cred total level))
    [] rfl (List.append_nil _).symm
  unfold scanResponse
  rw [read]

def requestBytes (rpIdHash : Buf 32) : Bytes :=
  headBytes .map 2 ++ (headBytes .uint 1 ++
    (headBytes .uint 4 ++ (headBytes .uint 2 ++ (headBytes .map 1 ++ (headBytes .uint 1 ++
    ((headBytes .bstr rpIdHash.bytes.length ++ rpIdHash.bytes) ++ []))))))

private theorem sends_request (rpIdHash : Buf 32) : Sends (credentialsItems rpIdHash) (requestBytes rpIdHash) :=
  .map 2 (.uint 1 (.uint 4 (.uint 2 (.map 1 (.uint 1 (.bstr _ .nil))))))

def partyParams (rpIdHash : Buf 32) : CredMgmtParams :=
    { CredMgmtParams.zero with subCommand := 4, rpIdHash := some rpIdHash }

/-- A map of one pair more than is left to read. -/
theorem reads_uintPairs {α : Type} {field : UInt64 → α → Parse α} {acc next result : α} {count : Nat} {bytes tail : Bytes}
    (key : UInt64) (reads : Reads (field key acc) bytes next)
    (rest : Reads (Proc.repeatWith count (fun acc => do field (← decodeUint.orFail .invalidCbor) acc) next) tail result) :
    Reads (Proc.repeatWith (count + 1) (fun acc => do field (← decodeUint.orFail .invalidCbor) acc) acc)
      (headBytes .uint key.toNat ++ (bytes ++ tail)) result := by
  have named : Reads (decodeUint.orFail .invalidCbor : Parse UInt64) (headBytes .uint key.toNat) key :=
    (reads_uint key).orFail
  have pair : Reads (do field (← decodeUint.orFail .invalidCbor) acc) (headBytes .uint key.toNat ++ bytes) next :=
    named.bind reads
  rw [← List.append_assoc]
  exact pair.bind rest

private theorem reads_uintMap {α : Type} {field : UInt64 → α → Parse α} {acc result : α} {count : Nat} {bytes : Bytes}
    (small : count < 2 ^ 64) (few : count * 2 ≤ bytes.length)
    (pairs : Reads (Proc.repeatWith count (fun acc => do field (← decodeUint.orFail .invalidCbor) acc) acc) bytes result) :
    Reads (parseUintMap field acc) (headBytes .map count ++ bytes) result :=
  (readsAhead_map count small).orFail.bind few pairs

def listing : CredMgmtParams := { CredMgmtParams.zero with subCommand := 4 }

private theorem reads_hashParam (rpIdHash : Buf 32) :
    Reads (credMgmtSubParam 1 listing) (headBytes .bstr rpIdHash.bytes.length ++ rpIdHash.bytes) (partyParams rpIdHash) := by
  have item : Reads nextItem (headBytes .bstr rpIdHash.bytes.length ++ rpIdHash.bytes) (.bstr rpIdHash.bytes) :=
    (reads_nextBstr rpIdHash.bytes (by rw [Buf.length_bytes]; decide)).orFail
  refine item.andThen ?_
  dsimp only
  rw [dif_pos rpIdHash.length_bytes]
  exact .pure _

private theorem reads_subParams (rpIdHash : Buf 32) :
    Reads (credMgmtField 2 listing) (headBytes .map 1 ++ (headBytes .uint 1 ++
      ((headBytes .bstr rpIdHash.bytes.length ++ rpIdHash.bytes) ++ []))) (partyParams rpIdHash) := by
  refine reads_uintMap (by decide) ?_ (reads_uintPairs 1 (reads_hashParam rpIdHash) (.pure _))
  simp only [List.length_append, Buf.length_bytes]
  omega

private theorem reads_subCommand : Reads (credMgmtField 1 .zero) (headBytes .uint 4) listing := by
  have four : Reads uintValue (headBytes .uint 4) 4 := (reads_uint 4).orFail
  exact four.andThen (.pure _)

private theorem parse_request (rpIdHash : Buf 32) : parseCredMgmtParams (requestBytes rpIdHash) =
    .ok (partyParams rpIdHash) := by
  have heads (major : Major) (value : Nat) : 0 < (headBytes major value).length :=
    List.length_pos_iff.mpr (headBytes_ne_nil major value)
  have ended : Reads (Proc.repeatWith 0 (fun params => do credMgmtField (← decodeUint.orFail .invalidCbor) params)
    (partyParams rpIdHash)) []
      (partyParams rpIdHash) := .pure _
  have pairs := reads_uintPairs 2 (reads_subParams rpIdHash) ended
  have reads : Reads (parseUintMap credMgmtField .zero) (requestBytes rpIdHash) (partyParams rpIdHash) := by
    rw [List.append_nil] at pairs
    refine reads_uintMap (by decide) ?_ (reads_uintPairs 1 reads_subCommand pairs)
    have one := heads .uint 1
    have two := heads .uint 2
    have four := heads .uint 4
    have map := heads .map 1
    simp only [List.length_append]
    omega
  have read := reads (Decoder.init (requestBytes rpIdHash)) [] rfl (List.append_nil _).symm
  unfold parseCredMgmtParams
  rw [read]
  rfl

/-- A request that could not be encoded is refused. -/
theorem parse_sent {rpIdHash : Buf 32} {params : CredMgmtParams}
    (parsed : parseCredMgmtParams (encodedRequest (credentialsItems rpIdHash)) = .ok params) :
    params = partyParams rpIdHash := by
  unfold encodedRequest at parsed
  cases made : encodeItems maxMsg (credentialsItems rpIdHash) with
  | none =>
    rw [made] at parsed
    cases parsed
  | some bytes =>
    rw [made, (sends_request rpIdHash).sent made] at parsed
    exact Except.ok.inj (parsed.symm.trans (parse_request rpIdHash))

section
variable {crypto : Crypto}

private theorem sendItems_eq_ok {capacity : Nat} {items : List (Encode Unit)} {ctx after : Ctx} {reply : Reply}
    (done : sendItems capacity items ctx = (.ok reply, after)) : encodeItems capacity items = some (payload reply) := by
  obtain ⟨bytes, _, encoded, done⟩ := Proc.bind_eq_ok.mp done
  cases done
  exact (need_eq_ok.mp encoded).1

def Lists (ctx : Ctx) (capacity : Nat) (reply : Reply) : Prop :=
  ∃ slot total, (ctx.credentials slot).inUse = true ∧
    encodeItems capacity ([encodeMap 5] ++ credentialItems (ctx.credentials slot) ++
      [encodeUint 0x09, encodeUint total, encodeUint 0x0A,
      encodeUint (ctx.credentials slot).credProtect.toUInt64]) = some (payload reply)

private theorem enumerateCredsBegin_lists {params : CredMgmtParams} {capacity : Nat} {ctx after : Ctx} {reply : Reply}
    (done : enumerateCredsBegin params capacity ctx = (.ok reply, after)) : Lists ctx capacity reply := by
  obtain ⟨rpIdHash, _, present, done⟩ := Proc.bind_eq_ok.mp done
  obtain ⟨-, rfl⟩ := need_eq_ok.mp present
  obtain ⟨_, _, got, done⟩ := Proc.bind_eq_ok.mp done
  cases got
  obtain ⟨_, _, -, done⟩ := Proc.bind_eq_ok.mp done
  dsimp only at done
  cases found : credSlots.filter fun slot => (ctx.credentials slot).inUse && decide ((ctx.credentials slot).rp.idHash =
    rpIdHash) with
  | nil =>
    rw [found] at done
    cases done
  | cons first rest =>
    rw [found] at done
    obtain ⟨_, _, -, done⟩ := Proc.bind_eq_ok.mp done
    have member : first ∈ credSlots.filter fun slot => (ctx.credentials slot).inUse && decide
      ((ctx.credentials slot).rp.idHash = rpIdHash) :=
      found ▸ List.mem_cons_self
    have held := (Bool.and_eq_true_iff.mp (List.mem_filter.mp member).2).1
    exact ⟨first, _, held, sendItems_eq_ok done⟩

private theorem credentialManagement_lists {env : Env} {rpIdHash : Buf 32} {capacity : Nat} {ctx after : Ctx} {reply : Reply}
    (done : credentialManagement crypto env (encodedRequest (credentialsItems rpIdHash)) capacity ctx = (.ok reply, after)) :
    Lists ctx capacity reply := by
  obtain ⟨params, _, read, done⟩ := Proc.bind_eq_ok.mp done
  obtain ⟨parsed, rfl⟩ := ofExcept_eq_ok.mp read
  have begins : ¬ isGetNext (partyParams rpIdHash).subCommand = true := (by decide : ¬ isGetNext 4 = true)
  rw [parse_sent parsed, if_neg begins] at done
  obtain ⟨_, authorised, checked, done⟩ := Proc.bind_eq_ok.mp done
  obtain ⟨_, emptied, cleared, done⟩ := Proc.bind_eq_ok.mp done
  have same : authorised.credentials = ctx.credentials := by
    have kept : Proc.Keeps Ctx.credentials (authorize crypto env permCredentialMgmt (partyParams rpIdHash).pinUvAuthParam
      (partyParams rpIdHash).pinProtocol (List.replicate 32 0xFF ++ [(partyParams rpIdHash).subCommand.toUInt8]) 16) :=
      keeps_authorize _ _ _ _ _
    have after := kept ctx
    rw [checked] at after
    exact after
  cases cleared
  have listed := @enumerateCredsBegin_lists (partyParams rpIdHash) capacity _ after reply done
  unfold Lists at listed ⊢
  rw [← same]
  exact listed

/-- The authenticator when the second request of a load reaches it. -/
def secondSight (crypto : Crypto) (parties : Link) (meanwhile : Ctx → Ctx) (ctx : Ctx) : Ctx :=
  meanwhile (fido2SendRecv crypto parties cmdCredentialMgmt (encodedRequest partiesItems) ctx).2

private theorem firstCredential_lists {parties credentials : Link} {meanwhile : Ctx → Ctx} {ctx after : Ctx}
    {party : PartyScan}
    {found : CredentialScan} (done : firstCredential crypto parties credentials meanwhile ctx = (.ok (party, found), after)) :
    ∃ reply, Lists (secondSight crypto parties meanwhile ctx) maxMsg reply ∧
      scanResponse credentialPair .zero (payload reply) = some found := by
  obtain ⟨rsp, reached, sent, done⟩ := Proc.bind_eq_ok.mp done
  have seen : (fido2SendRecv crypto parties cmdCredentialMgmt (encodedRequest partiesItems) ctx).2 = reached := by rw [sent]
  obtain ⟨scan, _, scanned, done⟩ := Proc.bind_eq_ok.mp done
  obtain ⟨-, rfl⟩ := given_eq_ok.mp scanned
  by_cases nobody : scan.totalRps = 0 ∨ scan.rpId.headD 0 = 0
  · rw [if_pos nobody] at done
    cases done
  · rw [if_neg nobody] at done
    obtain ⟨_, _, changed, done⟩ := Proc.bind_eq_ok.mp done
    cases changed
    obtain ⟨rsp, _, sent, done⟩ := Proc.bind_eq_ok.mp done
    obtain ⟨reply, processed, rfl⟩ := fido2SendRecv_eq_ok sent
    obtain ⟨_, _, scanned, done⟩ := Proc.bind_eq_ok.mp done
    have read := (given_eq_ok.mp scanned).1
    cases done
    rw [process_credentialMgmt] at processed
    have lists : Lists (meanwhile reached).dropAssertion maxMsg reply := credentialManagement_lists processed
    refine ⟨reply, ?_, read⟩
    unfold secondSight
    rw [seen]
    exact lists

private theorem skLoadResidentKeys_found {parties credentials : Link} {meanwhile : Ctx → Ctx} {memory : LoadMemory}
    {ctx last : Ctx}
    {keys : List ResidentKey} {key : ResidentKey} (inside : key ∈ keys)
    (done : skLoadResidentKeys crypto parties credentials meanwhile memory ctx = (.ok keys, last)) :
    ∃ party found after, firstCredential crypto parties credentials meanwhile ctx = (.ok (party, found), after) ∧
      residentKeys memory party found = some keys := by
  obtain ⟨found, reached, tried, done⟩ := Proc.bind_eq_ok.mp done
  unfold Proc.withDefault at tried
  rcases looked : firstCredential crypto parties credentials meanwhile ctx with ⟨problem | ⟨party, scan⟩, after⟩
  · rw [Proc.bind_of_error looked] at tried
    cases tried
    cases done
    cases inside
  · rw [Proc.bind_of_ok looked] at tried
    cases tried
    exact ⟨party, scan, _, rfl, (given_eq_ok.mp done).1⟩

private theorem residentKeys_mem {memory : LoadMemory} {party : PartyScan} {found : CredentialScan}
    {keys : List ResidentKey} {key : ResidentKey}
    (inside : key ∈ keys) (made : residentKeys memory party found = some keys) :
    found.pubkey.bytes.headD 0 = 0x04 ∧ found.credId ≠ [] ∧ key.key.publicKey = dupBytes memory.publicKey found.pubkey.bytes ∧
      key.key.keyHandle = dupBytes memory.keyHandle found.credId := by
  unfold residentKeys at made
  by_cases valid : found.credId.length > 0 ∧ found.pubkey.bytes.headD 0 = 0x04 ∧ found.alg = some skEcdsa
  · rw [if_pos valid] at made
    by_cases allocated : memory.key ∧ memory.application ∧ memory.keys
    · rw [if_pos allocated] at made
      cases made
      obtain rfl := List.mem_singleton.mp inside
      exact ⟨valid.2.1, List.length_pos_iff.mp valid.1, rfl, rfl⟩
    · rw [if_neg allocated] at made
      cases made
  · rw [if_neg valid] at made
    cases made
    cases inside

/-- The public key and the key handle of a credential: its point and its whole id. -/
def EnrollResponse.Gives (response : EnrollResponse) (pubkey : Buf 65) (credId : CredentialId) : Prop :=
  response.publicKey = some pubkey.bytes ∧ response.keyHandle = some credId.bytes

/-- The key belongs to a credential in use. If that has a point for its key, and the parts
could be copied, they are the point and the whole id. -/
def BelongsTo (store : Ctx) (memory : LoadMemory) (key : ResidentKey) : Prop :=
  ∃ slot, (store.credentials slot).inUse = true ∧
    (IsPoint (store.credentials slot).publicKey → memory.publicKey = true → memory.keyHandle = true →
      key.key.Gives (store.credentials slot).publicKey (store.credentials slot).credId)

private theorem loaded_key_belongs {parties credentials : Link} {meanwhile : Ctx → Ctx} {memory : LoadMemory} {ctx last : Ctx}
    {keys : List ResidentKey} {key : ResidentKey} (inside : key ∈ keys)
    (done : skLoadResidentKeys crypto parties credentials meanwhile memory ctx = (.ok keys, last)) :
    BelongsTo (secondSight crypto parties meanwhile ctx) memory key := by
  obtain ⟨party, found, after, looked, made⟩ := skLoadResidentKeys_found inside done
  obtain ⟨reply, ⟨slot, total, held, encoded⟩, scanned⟩ := firstCredential_lists looked
  obtain ⟨-, named, publicKey, keyHandle⟩ := residentKeys_mem inside made
  refine ⟨slot, held, fun point first second => ?_⟩
  rw [(sends_credential point total _).sent encoded, scanResponse_credential point] at scanned
  cases scanned
  rw [first] at publicKey
  rw [second] at keyHandle
  have long : ((secondSight crypto parties meanwhile ctx).credentials slot).publicKey.bytes ≠ [] := by
    apply List.length_pos_iff.mp
    rw [Buf.length_bytes]
    decide
  exact ⟨publicKey.trans (dupBytes_allocated long), keyHandle.trans (dupBytes_allocated named)⟩

private theorem loaded_key_begins {parties credentials : Link} {meanwhile : Ctx → Ctx} {memory : LoadMemory} {ctx last : Ctx}
    {keys : List ResidentKey} {key : ResidentKey} {bytes : Bytes} (inside : key ∈ keys)
    (done : skLoadResidentKeys crypto parties credentials meanwhile memory ctx = (.ok keys, last))
    (held : key.key.publicKey = some bytes) : bytes.headD 0 = 0x04 := by
  obtain ⟨party, found, after, looked, made⟩ := skLoadResidentKeys_found inside done
  obtain ⟨begins, -, publicKey, -⟩ := residentKeys_mem inside made
  rw [dupBytes_eq_some (publicKey.symm.trans held)]
  exact begins

private theorem coseKeyBytes_begins (pubkey : Buf 65) (extensions : Bytes) :
    (coseKeyBytes pubkey ++ extensions).headD 0 = 0xA5 := rfl

private theorem point_begins {pubkey : Buf 65} (point : IsPoint pubkey) : pubkey.bytes.headD 0 = 0x04 := by
  unfold IsPoint at point
  rw [sliceAt_bytes (by rw [Buf.length_bytes]; decide), List.drop_zero] at point
  rw [← List.take_append_drop 1 pubkey.bytes, point]
  rfl

/-- Whatever credential an enrolment has made, its response has the whole id of it but not
the point, and no key that is loaded at any time has the public key of the response. -/
theorem enrolled_key_never_agrees {link : Link} {memory : EnrollMemory} {userId : Option (Buf 32)} {args : Enrollment}
    {ctx after : Ctx}
    {response : EnrollResponse} (done : skEnroll crypto link memory userId args ctx = (.ok response, after)) :
    ∃ rpIdHash keypair credId, drawCredentialId crypto link.env ctx.wrapKey rpIdHash = some (keypair, credId) ∧
      IsPoint keypair.publicKey ∧ response.keyHandle = some credId.bytes ∧ ¬ response.Gives keypair.publicKey credId ∧
        ∀ parties credentials meanwhile room before keys last,
          skLoadResidentKeys crypto parties credentials meanwhile room before = (.ok keys, last) →
            ∀ key ∈ keys, BelongsTo (secondSight crypto parties meanwhile before) room key ∧
            key.key.publicKey ≠ response.publicKey := by
  obtain ⟨reply, registers, parsed⟩ := skEnroll_registers done
  obtain ⟨rpIdHash, keypair, credId, extensions, drawn, point, keyHandle, publicKey⟩ :=
    parseEnrollment_registered registers parsed
  -- a COSE key is a map of five pairs, and a point begins with a byte of its own
  have differs (bytes : Bytes) (begins : bytes.headD 0 = 0x04) : some bytes ≠ response.publicKey := by
    rw [publicKey]
    intro same
    have heads := coseKeyBytes_begins keypair.publicKey extensions
    rw [← Option.some.inj same, begins] at heads
    exact absurd heads (by decide)
  refine ⟨rpIdHash, keypair, credId, drawn, point, keyHandle, ?_, ?_⟩
  · intro gives
    exact differs _ (point_begins point) gives.1.symm
  · intro parties credentials meanwhile room before keys last loaded key inside
    refine ⟨loaded_key_belongs inside loaded, fun same => ?_⟩
    have held := same.trans publicKey
    exact differs _ (loaded_key_begins inside loaded held) publicKey.symm

end

def plainLink : Link := { delivers := true, answers := true, env := plainEnv 7 }

def enoughMemory : EnrollMemory := { response := true, authData := true, keyHandle := true, publicKey := true }

def enoughRoom : LoadMemory := { key := true, application := true, userId := true, publicKey := true, keyHandle := true, keys := true }

def plainEnrollment : Enrollment where
  alg := skEcdsa
  challenge := some (List.replicate 32 9)
  application := some (ascii "ssh:")
  flags := 0x21

def plainEnroll : Except Unit EnrollResponse × Ctx :=
  skEnroll tagCipher plainLink enoughMemory (some (fitTo 32 [5])) plainEnrollment (plainCtx true)

theorem enrolled_key_never_agrees_plain : ∃ response after, plainEnroll = (.ok response, after) ∧
    ∃ rpIdHash keypair credId, drawCredentialId tagCipher plainLink.env (plainCtx true).wrapKey rpIdHash =
    some (keypair, credId) ∧
      IsPoint keypair.publicKey ∧ response.keyHandle = some credId.bytes ∧ ¬ response.Gives keypair.publicKey credId := by
  have fine : plainEnroll.1.isOk = true := by decide +kernel
  rcases enrolled : plainEnroll with ⟨problem | response, after⟩
  · rw [enrolled] at fine
    cases fine
  · obtain ⟨rpIdHash, keypair, credId, drawn, point, keyHandle, differs, -⟩ := enrolled_key_never_agrees enrolled
    exact ⟨response, after, rfl, rpIdHash, keypair, credId, drawn, point, keyHandle, differs⟩

def plainHandle : Bytes :=
  (fitTo 12 [7]).bytes ++ (fitTo 32 [7]).bytes ++ (fitTo 32 (ascii "ssh:")).bytes ++ (keyTag (.zero 32)).bytes

def plainResponse : EnrollResponse :=
  { EnrollResponse.zero with
    publicKey := some (coseKeyBytes (fitTo 65 [4]))
    keyHandle := some plainHandle
    authData := some ((fitTo 32 (ascii "ssh:")).bytes ++ [0x45, 0, 0, 0, 1] ++ aaguid ++ [0, 92] ++ plainHandle ++
      coseKeyBytes (fitTo 65 [4])) }

def plainKey : ResidentKey where
  alg := skEcdsa
  application := ascii "ssh:"
  key := { EnrollResponse.zero with publicKey := some (fitTo 65 [4]).bytes, keyHandle := some plainHandle }
  userId := some (fitTo 32 [5]).bytes

/-- The key is loaded as soon as the credential has been made: with the same handle, and
with another public key. -/
theorem loaded_key_is_another : plainEnroll.1 = .ok plainResponse ∧
    (skLoadResidentKeys tagCipher plainLink plainLink id enoughRoom plainEnroll.2).1 = .ok [plainKey] ∧
      plainKey.key.keyHandle = plainResponse.keyHandle ∧ plainKey.key.publicKey ≠ plainResponse.publicKey := by
  have enrolled : plainEnroll.1 = .ok plainResponse := by decide +kernel
  have loaded : (skLoadResidentKeys tagCipher plainLink plainLink id enoughRoom plainEnroll.2).1 = .ok [plainKey] :=
    by decide +kernel
  exact ⟨enrolled, loaded, rfl, by decide +kernel⟩

end Hiya.Ssh
