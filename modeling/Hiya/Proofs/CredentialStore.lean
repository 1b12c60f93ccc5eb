import Hiya.Proofs.Specimens

/-! What a saved credential file gives back when it is loaded into a fresh context.
The writer and the reader agree on every field they both know; the hmac-secret data
is known to neither. -/

namespace Hiya.Fido2
open Library

section
variable {α β : Type}

def Takes (body : Take α) (bytes : Bytes) (value : α) : Prop := ∀ rest, body (bytes ++ rest) = (.ok value, rest)

namespace Takes

protected theorem pure (value : α) : Takes (pure value) [] value := fun _ => rfl

protected theorem bind {first : Take α} {next : α → Take β} {front back : Bytes} {middle : α} {value : β}
    (head : Takes first front middle) (tail : Takes (next middle) back value) :
    Takes (first >>= next) (front ++ back) value := by
  intro rest
  rw [List.append_assoc, Proc.bind_of_ok (head _)]
  exact tail rest

end Takes

theorem takes_bytes {size : Nat} (bytes : Bytes) (exact : bytes.length = size) :
    Takes (takeBytes size) bytes (.ofBytes bytes exact) := by
  intro rest
  have enough : size ≤ (bytes ++ rest).length := by
    rw [List.length_append]
    omega
  subst exact
  simp only [takeBytes, Proc.bind_apply, Proc.get_apply, dif_pos enough, Proc.modify_apply, Proc.pure_apply]
  congr 1
  · congr 1
    exact Buf.ext List.take_left
  · exact List.drop_left

theorem takes_buf {size : Nat} (buf : Buf size) : Takes (takeBytes size) buf.bytes buf := takes_bytes buf.bytes (by simp)

theorem takes_nat (size value : Nat) : Takes (takeNat size) (leBytes size value) (value % 256 ^ size) := by
  intro rest
  rw [takeNat, Proc.bind_of_ok (takes_bytes (leBytes size value) (by simp) rest)]
  rw [Buf.bytes_ofBytes, leNat_leBytes]
  rfl

theorem takes_byte (byte : UInt8) : Takes (takeNat 1) [byte] byte.toNat := by
  have read := takes_nat 1 byte.toNat
  rwa [show leBytes 1 byte.toNat = [byte] by simp [leBytes], Nat.mod_eq_of_lt (show byte.toNat < 256 ^ 1 from byte.toNat_lt)]
    at read

end

/-- A stored credential as the reader finds it: what the file does not hold comes from
the slot, and the level has made a round through its biased byte. -/
def restored (slot cred : Credential) : Credential :=
  { cred with
    inUse := true
    credProtect := protectV2 (cred.credProtect + 0x10).toNat
    hmacSecret := slot.hmacSecret
    hasHmacSecret := slot.hasHmacSecret }

theorem boolByte_toNat (value : Bool) : decide ((boolByte value).toNat ≠ 0) = value := by
  cases value with
  | false => rfl
  | true => rfl

theorem takes_credential (slot cred : Credential) :
    Takes (readCredential protectV2 slot) ((credentialBytes cred).drop 1) (restored slot cred) := by
  have shape : (credentialBytes cred).drop 1 =
      cred.rp.id.padded ++ (cred.rp.name.padded ++ (cred.rp.idHash.bytes ++ (cred.user.id.padded ++
        (leBytes 2 cred.user.id.bytes.length ++ (cred.user.name.padded ++ (cred.user.displayName.padded ++
        (cred.credId.padded ++ (leBytes 2 cred.credId.bytes.length ++ (cred.privateKey.bytes ++ (cred.publicKey.bytes ++
        (leBytes 4 cred.signCount.toNat ++ (leBytes 8 cred.created.toNat ++ ([boolByte cred.resident] ++
        ([cred.credProtect + 0x10] ++ [])))))))))))))) := by
    simp only [credentialBytes, List.append_assoc, List.append_nil]
    rfl
  rw [shape]
  refine .bind (takes_bytes _ (by simp; rfl)) <| .bind (takes_bytes _ (by simp; rfl)) <| .bind (takes_buf _) <|
    .bind (takes_bytes _ (by simp; rfl)) <| .bind (takes_nat 2 _) <| .bind (takes_bytes _ (by simp; rfl)) <|
    .bind (takes_bytes _ (by simp; rfl)) <| .bind (takes_bytes _ (by simp; rfl)) <| .bind (takes_nat 2 _) <|
    .bind (takes_buf _) <| .bind (takes_buf _) <| .bind (takes_nat 4 _) <| .bind (takes_nat 8 _) <|
    .bind (takes_byte _) <| .bind (takes_byte _) ?_
  have userShort : cred.user.id.bytes.length % 256 ^ 2 = cred.user.id.bytes.length :=
    Nat.mod_eq_of_lt (lt_of_le_of_lt cred.user.id.short (by decide))
  have idShort : cred.credId.bytes.length % 256 ^ 2 = cred.credId.bytes.length :=
    Nat.mod_eq_of_lt (lt_of_le_of_lt cred.credId.short (by decide))
  have count : cred.signCount.toNat % 256 ^ 4 = cred.signCount.toNat := Nat.mod_eq_of_lt cred.signCount.toNat_lt
  have created : cred.created.toNat % 256 ^ 8 = cred.created.toNat := Nat.mod_eq_of_lt cred.created.toNat_lt
  simp only [Buf.bytes_ofBytes, CText.ofSlice_padded, userShort, idShort, Blob.take_padded, Blob.ofSlice_bytes, count,
    created, UInt32.ofNat_toNat, UInt64.ofNat_toNat, boolByte_toNat]
  exact .pure _

def tableOf (creds : List Credential) (slot : CredSlot) : Credential := creds[slot.val]?.getD .zero

theorem tableOf_snoc (creds : List Credential) (room : creds.length < maxCredentialsStored) (cred : Credential) :
    Function.update (tableOf creds) ⟨creds.length, room⟩ cred = tableOf (creds ++ [cred]) := by
  funext slot
  unfold tableOf
  rcases Nat.lt_trichotomy slot.val creds.length with before | here | after
  · rw [Function.update_of_ne (by rintro rfl; exact absurd before (lt_irrefl _)), List.getElem?_append_left before]
  · obtain rfl : slot = ⟨creds.length, room⟩ := Fin.ext here
    simp
  · rw [Function.update_of_ne (by rintro rfl; exact absurd after (lt_irrefl _)), List.getElem?_eq_none after.le,
      List.getElem?_eq_none (by rw [List.length_append]; exact after)]

theorem map_tableOf {creds : List Credential} (fits : creds.length ≤ maxCredentialsStored) :
    credSlots.map (tableOf creds) = creds ++ List.replicate (maxCredentialsStored - creds.length) .zero := by
  apply List.ext_getElem
  · simp [credSlots, fits]
  · intro index first second
    simp only [credSlots, List.getElem_map, List.getElem_finRange, tableOf]
    by_cases inside : index < creds.length
    · simp [inside]
    · simp [inside, List.getElem_append_right (Nat.le_of_not_lt inside)]

def Ctx.withTable (creds : List Credential) (ctx : Ctx) : Ctx :=
  { ctx with credentials := tableOf creds, credentialCount := creds.length }

section
variable {ctx : Ctx} {creds : List Credential}

theorem freeSlot_withTable (used : ∀ cred ∈ creds, cred.inUse = true) (room : creds.length < maxCredentialsStored) :
    (ctx.withTable creds).freeSlot = some ⟨creds.length, room⟩ := by
  unfold Ctx.freeSlot
  rw [List.find?_eq_some_iff_getElem]
  refine ⟨by simp [Ctx.withTable, tableOf, Credential.zero], creds.length, by simpa [credSlots] using room,
    by simp [credSlots], ?_⟩
  intro index before
  simp [Ctx.withTable, tableOf, credSlots, before, used _ (List.getElem_mem before)]

theorem inUse_withTable (used : ∀ cred ∈ creds, cred.inUse = true) (fits : creds.length ≤ maxCredentialsStored) :
    (ctx.withTable creds).inUse = creds := by
  change (credSlots.map (tableOf creds)).filter Credential.inUse = creds
  rw [map_tableOf fits, List.filter_append, List.filter_eq_self.mpr used, List.filter_replicate]
  simp [Credential.zero]

/-- What a read takes off the front of the records leaves the context alone. -/
theorem onRest_takes {α : Type} {body : Take α} {bytes : Bytes} {value : α} (takes : Takes body bytes value)
    (rest : Bytes) (ctx : Ctx) :
    onRest body { rest := bytes ++ rest, ctx } = (.ok value, { rest, ctx }) := by
  simp only [onRest, Proc.zoom, takes rest]

theorem loadEntry_record (used : ∀ cred ∈ creds, cred.inUse = true) (room : creds.length < maxCredentialsStored)
    (cred : Credential) (rest : Bytes) :
    loadEntry protectV2 { rest := credentialBytes cred ++ rest, ctx := ctx.withTable creds } =
      (.ok (), { rest, ctx := ctx.withTable (creds ++ [restored .zero cred]) }) := by
  have whole : credentialBytes cred = [1] ++ (credentialBytes cred).drop 1 := by
    unfold credentialBytes
    simp only [List.append_assoc]
    rfl
  have flagged : credentialBytes cred ++ rest = [1] ++ ((credentialBytes cred).drop 1 ++ rest) := by
    rw [← List.append_assoc, ← whole]
  have slot : (ctx.withTable creds).credentials ⟨creds.length, room⟩ = .zero := by simp [Ctx.withTable, tableOf]
  rw [flagged, loadEntry, Proc.bind_of_ok (onRest_takes (takes_byte 1) _ _), if_neg (by decide)]
  rw [Proc.bind_of_ok (Proc.get_apply _)]
  simp only [freeSlot_withTable used room, slot]
  rw [Proc.bind_of_ok (onRest_takes (takes_credential .zero cred) rest _), Proc.modify_apply]
  apply congrArg fun filled : Ctx => ((.ok (), { rest, ctx := filled }) : Except Unit Unit × Loader)
  change ({ ctx with
    credentials := Function.update (tableOf creds) _ _, credentialCount := creds.length + 1 } : Ctx) = _
  rw [tableOf_snoc, Ctx.withTable, List.length_append]
  rfl

/-- Without records left nothing more is read. -/
theorem loadEntry_done (ctx : Ctx) : loadEntry protectV2 { rest := [], ctx } = (.error (), { rest := [], ctx }) := rfl

theorem loadEntries_records (todo : List Credential) (count : Nat) : ∀ creds : List Credential,
    (∀ cred ∈ creds, cred.inUse = true) → creds.length + todo.length ≤ maxCredentialsStored →
    (Proc.repeatWith count (fun _ => loadEntry protectV2) ()
      { rest := todo.flatMap credentialBytes, ctx := ctx.withTable creds }).2.ctx =
      ctx.withTable (creds ++ (todo.take count).map (restored .zero)) := by
  induction count generalizing todo with
  | zero =>
    intro creds _ _
    simp [Proc.repeatWith]
  | succ count ih =>
    intro creds used fits
    cases todo with
    | nil =>
      rw [Proc.repeatWith, List.flatMap_nil, Proc.bind_of_error (loadEntry_done _)]
      simp
    | cons cred rest =>
      rw [List.length_cons] at fits
      rw [Proc.repeatWith, List.flatMap_cons, Proc.bind_of_ok (loadEntry_record used (by omega) cred _)]
      rw [ih rest (creds ++ [restored .zero cred])]
      · rw [List.take_succ_cons, List.map_cons, List.append_assoc, List.singleton_append]
      · intro stored inside
        rcases List.mem_append.mp inside with inside | inside
        · exact used stored inside
        · rw [List.mem_singleton.mp inside]
          rfl
      · rw [List.length_append, List.length_singleton]
        omega

end

theorem sliceAt_middle {size start : Nat} (front back : Bytes) (middle : Buf size) (here : front.length = start) :
    sliceAt (front ++ (middle.bytes ++ back)) start size = middle := by
  have taken : ((front ++ (middle.bytes ++ back)).drop start).take size = middle.bytes := by
    rw [← here, List.drop_left]
    exact List.take_left' (by simp)
  apply Buf.ext
  simp only [sliceAt, Buf.bytes_ofBytes, taken, Buf.length_bytes, Nat.sub_self, List.replicate_zero, List.append_nil]

theorem boolAt_middle {start : Nat} (front back : Bytes) (value : Bool) (here : front.length = start) :
    boolAt (front ++ ([boolByte value] ++ back)) start = value := by
  unfold boolAt
  rw [show [boolByte value] = (Buf.ofBytes [boolByte value] rfl : Buf 1).bytes from rfl, sliceAt_middle front back _ here]
  cases value with
  | false => rfl
  | true => rfl

theorem wordAt_middle {start : Nat} (front back : Bytes) (value : Nat) (here : front.length = start) :
    leNat (sliceAt (front ++ (leBytes 4 value ++ back)) start 4).bytes = value % 256 ^ 4 := by
  rw [show leBytes 4 value = (Buf.ofBytes (leBytes 4 value) (by simp) : Buf 4).bytes from rfl,
    sliceAt_middle front back _ here, Buf.bytes_ofBytes, leNat_leBytes]

theorem uint32At_middle {start : Nat} (front back : Bytes) (value : UInt32) (here : front.length = start) :
    uint32At (front ++ (leBytes 4 value.toNat ++ back)) start = value := by
  unfold uint32At
  rw [wordAt_middle front back _ here, Nat.mod_eq_of_lt (by exact value.toNat_lt), UInt32.ofNat_toNat]

theorem toBytes_length (pin : PinState) : pin.toBytes.length = pinStateSize := by
  simp only [PinState.toBytes, List.length_append, List.length_singleton, List.length_replicate, Buf.length_bytes,
    leBytes_length, CText.padded_length]
  rfl

/-- What outlives a session survives a round through memory. -/
theorem wipeSession_ofBytes (pin : PinState) : (PinState.ofBytes pin.toBytes).wipeSession = pin.wipeSession := by
  obtain ⟨back, shape⟩ : ∃ back, pin.toBytes = [boolByte pin.pinSet] ++ (pin.pinHash.bytes ++ (List.replicate 3 0 ++
      (leBytes 4 pin.pinRetries.toUInt32.toNat ++ ([boolByte pin.pinBlocked] ++ back)))) :=
    ⟨_, by simp only [PinState.toBytes, List.append_assoc]; rfl⟩
  have set : (PinState.ofBytes pin.toBytes).pinSet = pin.pinSet := by
    rw [shape]
    exact boolAt_middle [] _ pin.pinSet rfl
  have hash : (PinState.ofBytes pin.toBytes).pinHash = pin.pinHash := by
    rw [shape]
    exact sliceAt_middle [boolByte pin.pinSet] _ pin.pinHash rfl
  have retries : (PinState.ofBytes pin.toBytes).pinRetries = pin.pinRetries := by
    have split : pin.toBytes = ([boolByte pin.pinSet] ++ pin.pinHash.bytes ++ List.replicate 3 0) ++
        (leBytes 4 pin.pinRetries.toUInt32.toNat ++ ([boolByte pin.pinBlocked] ++ back)) := by
      rw [shape, List.append_assoc, List.append_assoc]
    have read := uint32At_middle ([boolByte pin.pinSet] ++ pin.pinHash.bytes ++ List.replicate 3 0)
      ([boolByte pin.pinBlocked] ++ back) pin.pinRetries.toUInt32 (by simp : _ = 20)
    rw [← split] at read
    exact congrArg UInt32.toInt32 read
  have blocked : (PinState.ofBytes pin.toBytes).pinBlocked = pin.pinBlocked := by
    have split : pin.toBytes = ([boolByte pin.pinSet] ++ pin.pinHash.bytes ++ List.replicate 3 0 ++
        leBytes 4 pin.pinRetries.toUInt32.toNat) ++ ([boolByte pin.pinBlocked] ++ back) := by
      rw [shape, List.append_assoc, List.append_assoc, List.append_assoc]
    have read := boolAt_middle ([boolByte pin.pinSet] ++ pin.pinHash.bytes ++ List.replicate 3 0 ++
      leBytes 4 pin.pinRetries.toUInt32.toNat) back pin.pinBlocked (by simp : _ = 24)
    rw [← split] at read
    have field (memory : Bytes) : (PinState.ofBytes memory).pinBlocked = boolAt memory 24 := rfl
    rw [field, read]
  simp only [PinState.wipeSession, set, hash, retries, blocked]

theorem storeHeader_length (version count signCount : Nat) : (storeHeader version count signCount).length = 16 := by
  simp [storeHeader]
  rfl

theorem sliceAt_bytes {memory : Bytes} {start size : Nat} (inside : start + size ≤ memory.length) :
    (sliceAt memory start size).bytes = (memory.drop start).take size := by
  have whole : ((memory.drop start).take size).length = size := by
    rw [List.length_take, List.length_drop]
    omega
  simp only [sliceAt, Buf.bytes_ofBytes, whole, Nat.sub_self, List.replicate_zero, List.append_nil]

theorem leBytes_sliceAt (memory : Bytes) (start size : Nat) :
    leBytes size (leNat (sliceAt memory start size).bytes) = (sliceAt memory start size).bytes := by
  have whole := leBytes_leNat (sliceAt memory start size).bytes
  rwa [Buf.length_bytes] at whole

theorem uint32At_toNat (memory : Bytes) (start : Nat) :
    (uint32At memory start).toNat = leNat (sliceAt memory start 4).bytes := by
  have small := leNat_lt (sliceAt memory start 4).bytes
  rw [Buf.length_bytes] at small
  exact UInt32.toNat_ofNat_of_lt' small

/-- The header is rebuilt from what was read of it. -/
theorem storeHeader_of_file {file : Bytes} (magic : file.take 4 = storeMagic) (long : 16 ≤ file.length) :
    storeHeader (leNat (sliceAt file 4 4).bytes) (leNat (sliceAt file 8 4).bytes) (uint32At file 12).toNat =
    file.take 16 := by
  have split : file.take 16 = file.take 4 ++ (file.drop 4).take 4 ++ (file.drop 8).take 4 ++ (file.drop 12).take 4 := by
    rw [← List.take_add, ← List.take_add, ← List.take_add]
  rw [split, storeHeader, uint32At_toNat, leBytes_sliceAt, leBytes_sliceAt, leBytes_sliceAt, ← magic,
    sliceAt_bytes (by omega), sliceAt_bytes (by omega), sliceAt_bytes (by omega)]

section
variable {crypto : Crypto} {env : Env} {key : Buf 32}

/-- What is sealed opens again. -/
def Crypto.OpensSealed (crypto : Crypto) : Prop :=
  ∀ (size : Nat) (key : Buf 32) (nonce : Buf 12) (aad : Bytes) (plain text : Buf size) (tag : Buf 16),
    crypto.gcmSeal key nonce aad plain = some (text, tag) → crypto.gcmOpen key nonce aad text tag = some plain

/-- The size a text is opened at is read off the file, so it only turns out to be the
size it was sealed at. -/
theorem opens_resized (opens : crypto.OpensSealed) {size : Nat} {nonce : Buf 12} {aad : Bytes} {plain text : Buf size}
    {tag : Buf 16} (sealed : crypto.gcmSeal key nonce aad plain = some (text, tag)) {found : Nat} (resized : Buf found)
    (same : resized.bytes = text.bytes) :
    ∃ opened : Buf found, crypto.gcmOpen key nonce aad resized tag = some opened ∧ opened.bytes = plain.bytes := by
  obtain rfl : found = size := by rw [← resized.length_bytes, same, text.length_bytes]
  obtain rfl : resized = text := Buf.ext same
  exact ⟨plain, opens found key nonce aad plain resized tag sealed, rfl⟩

theorem saveCredentials_ok {ctx saved : Ctx} (wrap : ctx.wrapKey = some key)
    (done : saveCredentials crypto env ctx = (.ok (), saved)) :
    ∃ nonce text tag, crypto.gcmSeal key nonce (storeHeader storeVersion ctx.credentialCount ctx.globalSignCount.toNat)
        (.ofBytes (storePlaintext ctx) rfl) = some (text, tag) ∧
      saved.disk = some (storeHeader storeVersion ctx.credentialCount ctx.globalSignCount.toNat ++
        (nonce.bytes ++ (text.bytes ++ tag.bytes))) := by
  rw [saveCredentials, Proc.bind_of_ok (Proc.get_apply ctx), wrap] at done
  cases drawn : env.saveNonce with
  | none =>
    rw [drawn] at done
    cases done
  | some nonce =>
    simp only [drawn] at done
    cases sealed : crypto.gcmSeal key nonce
        (storeHeader storeVersion ctx.credentialCount ctx.globalSignCount.toNat) (.ofBytes (storePlaintext ctx) rfl) with
    | none =>
      rw [sealed] at done
      cases done
    | some pair =>
      rw [sealed] at done
      cases done
      exact ⟨nonce, pair.1, pair.2, sealed, by simp⟩

theorem loadEncrypted_sealed (opens : crypto.OpensSealed) {ctx start : Ctx} {nonce : Buf 12} {header : Bytes}
    {text : Buf (storePlaintext ctx).length} {tag : Buf 16}
    (sealed : crypto.gcmSeal key nonce header (.ofBytes (storePlaintext ctx) rfl) = some (text, tag)) (count : Nat) :
    loadEncrypted crypto key header count (nonce.bytes ++ (text.bytes ++ tag.bytes)) start =
      (.ok (), loadEntries protectV2 count (ctx.inUse.flatMap credentialBytes)
      { start with pin := ctx.pin.wipeSession }) := by
  obtain ⟨body, shape⟩ : ∃ body, body = nonce.bytes ++ (text.bytes ++ tag.bytes) := ⟨_, rfl⟩
  rw [← shape]
  have nonceRead : sliceAt body 0 12 = nonce := shape ▸ sliceAt_middle [] _ nonce rfl
  have blob : body.drop 12 = text.bytes ++ tag.bytes := shape ▸ List.drop_left' (by simp)
  have size : (body.drop 12).length - 16 = text.bytes.length := by simp [blob]
  have tagRead : sliceAt (body.drop 12) ((body.drop 12).length - 16) 16 = tag := by
    have read := sliceAt_middle text.bytes [] tag size.symm
    rwa [List.append_nil, ← blob] at read
  have textRead : (sliceAt (body.drop 12) 0 ((body.drop 12).length - 16)).bytes = text.bytes := by
    rw [sliceAt_bytes (by omega), List.drop_zero, size, blob, List.take_left]
  obtain ⟨opened, opens, plain⟩ := opens_resized opens sealed _ textRead
  have pin : opened.bytes.take pinStateSize = ctx.pin.wipeSession.toBytes := by
    rw [plain]
    exact List.take_left' (toBytes_length _)
  have records : opened.bytes.drop pinStateSize = ctx.inUse.flatMap credentialBytes := by
    rw [plain]
    exact List.drop_left' (toBytes_length _)
  have long : ¬ opened.bytes.length < pinStateSize := by
    rw [plain, Buf.bytes_ofBytes, storePlaintext, List.length_append, toBytes_length]
    omega
  have enough : ¬ body.length < 12 ∧ ¬ (body.drop 12).length < 16 := by simp [shape]
  unfold loadEncrypted
  simp only [if_neg enough.1, if_neg enough.2, nonceRead, tagRead, opens, if_neg long, pin, records, wipeSession_ofBytes]
  rfl

/-- A file of the current version goes to the sealed format, with its own header as
the authenticated data. -/
theorem loadFile_current {file : Bytes} {start : Ctx} (magic : file.take 4 = storeMagic) (long : 16 ≤ file.length)
    (version : leNat (sliceAt file 4 4).bytes = storeVersion) (wrap : start.wrapKey = some key) :
    loadFile crypto env file start = loadEncrypted crypto key (file.take 16) (leNat (sliceAt file 8 4).bytes)
      (file.drop 16) { start with globalSignCount := uint32At file 12 } := by
  have header := storeHeader_of_file magic long
  unfold loadFile
  rw [if_neg (not_not.mpr magic), if_neg (by omega), Proc.bind_of_ok (Proc.modify_apply _ _),
    Proc.bind_of_ok (Proc.get_apply _), if_pos version, header]
  simp only [wrap]

theorem loadFile_header {count : Nat} {signCount : UInt32} {rest : Bytes} {start : Ctx}
    (wrap : start.wrapKey = some key) :
    loadFile crypto env (storeHeader storeVersion count signCount.toNat ++ rest) start =
      loadEncrypted crypto key (storeHeader storeVersion count signCount.toNat) (count % 256 ^ 4) rest
        { start with globalSignCount := signCount } := by
  obtain ⟨file, shape⟩ : ∃ file, file = storeHeader storeVersion count signCount.toNat ++ rest := ⟨_, rfl⟩
  have words : file = storeMagic ++ (leBytes 4 storeVersion ++ (leBytes 4 count ++ (leBytes 4 signCount.toNat ++ rest))) := by
    simp only [shape, storeHeader, List.append_assoc]
  have version : leNat (sliceAt file 4 4).bytes = storeVersion := words ▸ wordAt_middle storeMagic _ storeVersion rfl
  have counted : leNat (sliceAt file 8 4).bytes = count % 256 ^ 4 := by
    have read := wordAt_middle (storeMagic ++ leBytes 4 storeVersion) (leBytes 4 signCount.toNat ++ rest) count
      (by simp; rfl : _ = 8)
    rwa [List.append_assoc, ← words] at read
  have signed : uint32At file 12 = signCount := by
    have read := uint32At_middle (storeMagic ++ leBytes 4 storeVersion ++ leBytes 4 count) rest signCount
      (by simp; rfl : _ = 12)
    rwa [List.append_assoc, List.append_assoc, ← words] at read
  have magic : file.take 4 = storeMagic := words ▸ List.take_left' rfl
  have long : 16 ≤ file.length := by
    rw [shape, List.length_append, storeHeader_length]
    omega
  rw [← shape, loadFile_current magic long version wrap, counted, signed, shape,
    List.take_left' (storeHeader_length _ _ _), List.drop_left' (storeHeader_length _ _ _)]

theorem loadCredentials_file {ctx : Ctx} {file : Bytes} (disk : ctx.disk = some file) :
    loadCredentials crypto env ctx = loadFile crypto env file ctx := by
  rw [loadCredentials, Proc.bind_of_ok (Proc.get_apply ctx), disk]

theorem inUse_length (ctx : Ctx) : ctx.inUse.length ≤ maxCredentialsStored := by
  calc ctx.inUse.length ≤ (credSlots.map ctx.credentials).length := List.length_filter_le _ _
    _ = maxCredentialsStored := by simp [credSlots]

/-- Loading what was saved, into a context after start-up. -/
theorem fido2Init_saved (opens : crypto.OpensSealed) {ctx saved : Ctx} (wrap : ctx.wrapKey = some key)
    (done : saveCredentials crypto env ctx = (.ok (), saved)) (loadEnv : Env) (keypair : Keypair) :
    ∃ start : Ctx, start.pin = ctx.pin.wipeSession ∧ start.globalSignCount = ctx.globalSignCount ∧
      start.wrapKey = some key ∧ start.disk = saved.disk ∧
      fido2Init crypto loadEnv keypair key saved.disk =
        start.withTable ((ctx.inUse.take (min (ctx.credentialCount % 256 ^ 4) maxCredentialsStored)).map
        (restored .zero)) := by
  obtain ⟨nonce, text, tag, sealed, disk⟩ := saveCredentials_ok wrap done
  let start : Ctx := { Ctx.fresh loadEnv keypair key saved.disk with
    globalSignCount := ctx.globalSignCount, pin := ctx.pin.wipeSession }
  have empty : { start with credentialCount := 0 } = start.withTable [] := by
    have none : start.credentials = tableOf [] := by
      funext slot
      rfl
    rw [Ctx.withTable, ← none]
    rfl
  refine ⟨start, rfl, rfl, rfl, rfl, ?_⟩
  have loaded : fido2Init crypto loadEnv keypair key saved.disk = loadEntries protectV2 (ctx.credentialCount % 256 ^ 4)
      (ctx.inUse.flatMap credentialBytes) start := by
    rw [fido2Init, loadCredentials_file (show (Ctx.fresh loadEnv keypair key saved.disk).disk = _ from disk),
      loadFile_header rfl,
      loadEncrypted_sealed opens sealed]
  rw [loaded, loadEntries, empty]
  exact loadEntries_records ctx.inUse _ [] (by simp) (by simpa using inUse_length ctx)

/-- What a restart on a saved file begins with, the credentials apart. -/
theorem fido2Init_restart (opens : crypto.OpensSealed) {ctx saved : Ctx} {file : Bytes} (wrap : ctx.wrapKey = some key)
    (done : saveCredentials crypto env ctx = (.ok (), saved)) (disk : saved.disk = some file) (loadEnv : Env)
    (keypair : Keypair) :
    (fido2Init crypto loadEnv keypair key (some file)).wrapKey = some key ∧
      (fido2Init crypto loadEnv keypair key (some file)).pin = ctx.pin.wipeSession ∧
      (fido2Init crypto loadEnv keypair key (some file)).disk = some file := by
  obtain ⟨start, pin, -, wrap?, disk?, loaded⟩ := fido2Init_saved opens wrap done loadEnv keypair
  rw [← disk, loaded]
  exact ⟨wrap?, pin, disk?⟩

end

/-- The persistent state of a context, found again in another one. -/
structure Restored (ctx loaded : Ctx) : Prop where
  credentials : loaded.inUse = ctx.inUse
  pin : loaded.pin = ctx.pin.wipeSession
  signCount : loaded.globalSignCount = ctx.globalSignCount

/-- A credential the file format can hold: without hmac-secret data, and with a level
that survives its bias. -/
structure Storable (cred : Credential) : Prop where
  plain : cred.hasHmacSecret = false
  blank : cred.hmacSecret = .zero 32
  level : cred.credProtect ≤ 0xEF

theorem protectV2_biased (level : UInt8) : protectV2 (level + 0x10).toNat = level ↔ level ≤ 0xEF := by
  have table : ∀ value : Fin 256, protectV2 (UInt8.ofNat value + 0x10).toNat = UInt8.ofNat value ↔
      UInt8.ofNat value ≤ 0xEF := by decide +kernel
  have entry := table ⟨level.toNat, level.toNat_lt⟩
  rwa [UInt8.ofNat_toNat] at entry

theorem restored_eq_iff {cred : Credential} (inUse : cred.inUse = true) : restored .zero cred = cred ↔ Storable cred := by
  constructor
  · intro same
    exact ⟨(congrArg Credential.hasHmacSecret same).symm, (congrArg Credential.hmacSecret same).symm,
      (protectV2_biased _).mp (congrArg Credential.credProtect same)⟩
  · rintro ⟨plain, blank, level⟩
    have kept := (protectV2_biased _).mpr level
    obtain ⟨used, rp, user, credId, privateKey, publicKey, signCount, created, resident, credProtect, secret,
      hasSecret⟩ := cred
    simp only at inUse plain blank kept
    simp only [restored, inUse, plain, blank, kept, Credential.zero]

/-- The front of a list, changed item by item, is the list itself only if it is all
of it and no item changes. -/
theorem map_take_eq_self {α : Type} {change : α → α} {items : List α} {count : Nat} :
    (items.take count).map change = items ↔ items.length ≤ count ∧ ∀ item ∈ items, change item = item := by
  constructor
  · intro same
    have whole : items.length ≤ count := by
      have lengths := congrArg List.length same
      rw [List.length_map, List.length_take] at lengths
      omega
    rw [List.take_of_length_le whole] at same
    exact ⟨whole, List.map_inj_left.mp (same.trans (List.map_id items).symm)⟩
  · rintro ⟨whole, fixed⟩
    rw [List.take_of_length_le whole]
    exact (List.map_inj_left.mpr fixed).trans (List.map_id items)

/-- What is saved comes back exactly when every credential in use can be stored and
the counted credentials are all there are. -/
theorem saved_state_restored_iff (crypto : Crypto) (opens : crypto.OpensSealed) (env loadEnv : Env) (keypair : Keypair)
    (key : Buf 32) (ctx saved : Ctx) (wrap : ctx.wrapKey = some key)
    (done : saveCredentials crypto env ctx = (.ok (), saved)) :
    Restored ctx (fido2Init crypto loadEnv keypair key saved.disk) ↔
      (∀ cred ∈ ctx.inUse, Storable cred) ∧ ctx.inUse.length ≤ ctx.credentialCount % 2 ^ 32 := by
  obtain ⟨start, pin, signCount, -, -, loaded⟩ := fido2Init_saved opens wrap done loadEnv keypair
  have fits := inUse_length ctx
  have back : (fido2Init crypto loadEnv keypair key saved.disk).inUse =
      (ctx.inUse.take (min (ctx.credentialCount % 256 ^ 4) maxCredentialsStored)).map (restored .zero) := by
    rw [loaded]
    apply inUse_withTable
    · intro cred inside
      obtain ⟨stored, -, rfl⟩ := List.mem_map.mp inside
      rfl
    · rw [List.length_map, List.length_take]
      omega
  have storable : (∀ cred ∈ ctx.inUse, restored .zero cred = cred) ↔ ∀ cred ∈ ctx.inUse, Storable cred :=
    forall₂_congr fun cred inside => restored_eq_iff (List.mem_filter.mp inside).2
  have list : (fido2Init crypto loadEnv keypair key saved.disk).inUse = ctx.inUse ↔
      (∀ cred ∈ ctx.inUse, Storable cred) ∧ ctx.inUse.length ≤ ctx.credentialCount % 2 ^ 32 := by
    rw [back, map_take_eq_self, storable, Nat.le_min, and_comm]
    exact and_congr_right fun _ => and_iff_left fits
  constructor
  · exact fun restored => list.mp restored.credentials
  · intro holds
    exact ⟨list.mpr holds, by rw [loaded]; exact pin, by rw [loaded]; exact signCount⟩

/-- The state a registration leaves behind. -/
def stateAfter (request : Request) : Ctx := (process tagCipher request (plainCtx false)).2

theorem tagCipher_opens : tagCipher.OpensSealed := fun size key nonce aad plain text tag =>
  (tagCipher_exact size key nonce aad plain text tag).mpr

theorem stateAfter_saves {request : Request}
    (saves : (saveCredentials tagCipher (plainEnv 0) (stateAfter request)).1 = .ok ()) :
    saveCredentials tagCipher (plainEnv 0) (stateAfter request) =
      (.ok (), (saveCredentials tagCipher (plainEnv 0) (stateAfter request)).2) := Prod.ext saves rfl

theorem saved_state_restored_resident :
    Restored (stateAfter (residentRequest 1 2)) (fido2Init tagCipher (plainEnv 0) plainKeypair (.zero 32)
      (saveCredentials tagCipher (plainEnv 0) (stateAfter (residentRequest 1 2))).2.disk) := by
  apply (saved_state_restored_iff tagCipher tagCipher_opens (plainEnv 0) (plainEnv 0) plainKeypair (.zero 32)
    (stateAfter (residentRequest 1 2)) _ (by decide +kernel) (stateAfter_saves (by decide +kernel))).mpr
  have checked : (stateAfter (residentRequest 1 2)).inUse.all (fun cred =>
      !cred.hasHmacSecret && decide (cred.hmacSecret = .zero 32) && decide (cred.credProtect ≤ 0xEF)) = true := by
    decide +kernel
  refine ⟨fun cred inside => ?_, by decide +kernel⟩
  have good := List.all_eq_true.mp checked cred inside
  simp only [Bool.and_eq_true, Bool.not_eq_true', decide_eq_true_eq] at good
  exact ⟨good.1.1, good.1.2, good.2⟩

theorem saving_drops_hmac_secret :
    ¬ ∀ crypto : Crypto, crypto.OpensSealed → ∀ env loadEnv keypair key ctx saved, ctx.wrapKey = some key →
      saveCredentials crypto env ctx = (.ok (), saved) →
      Restored ctx (fido2Init crypto loadEnv keypair key saved.disk) := by
  intro claimed
  have restored := claimed tagCipher tagCipher_opens (plainEnv 0) (plainEnv 0) plainKeypair (.zero 32)
    (stateAfter (hmacRequest 1)) _ (by decide +kernel) (stateAfter_saves (by decide +kernel))
  have kept : (fido2Init tagCipher (plainEnv 0) plainKeypair (.zero 32)
      (saveCredentials tagCipher (plainEnv 0) (stateAfter (hmacRequest 1))).2.disk).inUse.map Credential.hasHmacSecret =
      [false] := by decide +kernel
  have held : (stateAfter (hmacRequest 1)).inUse.map Credential.hasHmacSecret = [true] := by decide +kernel
  rw [restored.credentials, held] at kept
  cases kept

end Hiya.Fido2
