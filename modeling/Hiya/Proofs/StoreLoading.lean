import Hiya.Library.Ends
import Hiya.Proofs.CredentialStore

/-! What loading a file can do to a context that has a wrap key. A file of the current
version installs only what opened under the key, and a failed load leaves the
credentials alone; a file of any other version is taken as it stands. -/

namespace Hiya.Fido2
open Library

section
variable {bytes : Bytes} {protect : Nat → UInt8}

/-- Reading leaves an end of what there was to read. -/
theorem takeBytes_suffix (size : Nat) : Proc.Preserves (· <:+ bytes) (takeBytes size) := by
  intro rest inside
  simp only [takeBytes, Proc.bind_apply, Proc.get_apply]
  split
  · exact (List.drop_suffix size rest).trans inside
  · exact inside

theorem takeNat_suffix (size : Nat) : Proc.Preserves (· <:+ bytes) (takeNat size) :=
  .bind (takeBytes_suffix size) fun _ => .pure _

theorem readCredential_suffix (slot : Credential) : Proc.Preserves (· <:+ bytes) (readCredential protect slot) := by
  unfold readCredential
  iterate 4 refine .bind (takeBytes_suffix _) fun _ => ?_
  refine .bind (takeNat_suffix _) fun _ => ?_
  iterate 3 refine .bind (takeBytes_suffix _) fun _ => ?_
  refine .bind (takeNat_suffix _) fun _ => ?_
  iterate 2 refine .bind (takeBytes_suffix _) fun _ => ?_
  iterate 4 refine .bind (takeNat_suffix _) fun _ => ?_
  exact .pure _

theorem readCredential_inUse (slot : Credential) : Proc.Ensures (readCredential protect slot) fun cred => cred.inUse =
    true := by
  unfold readCredential
  iterate 15 refine .after fun _ => ?_
  exact .pure rfl

def RecordOf (bytes : Bytes) (slot cred : Credential) : Prop :=
  ∃ record rest, record <:+ bytes ∧ readCredential protectV2 slot record = (.ok cred, rest)

theorem RecordOf.inUse {slot cred : Credential} (holds : RecordOf bytes slot cred) : cred.inUse = true := by
  obtain ⟨record, rest, -, done⟩ := holds
  exact readCredential_inUse slot record cred rest done

def Filled (bytes : Bytes) (start ctx : Ctx) : Prop :=
  ∀ slot, ctx.credentials slot = start.credentials slot ∨ RecordOf bytes (start.credentials slot) (ctx.credentials slot)

structure Loading (bytes : Bytes) (start : Ctx) (loader : Loader) : Prop where
  rest : loader.rest <:+ bytes
  pin : loader.ctx.pin = start.pin
  filled : Filled bytes start loader.ctx

variable {start : Ctx}

/-- Read from the front of the records and go on with the same context. -/
theorem Loading.read {α β : Type} {body : Take α} {next : α → Proc Loader Unit β} {loader : Loader}
    (loading : Loading bytes start loader) (kept : Proc.Preserves (· <:+ bytes) body)
    (rest : ∀ value left, body loader.rest = (.ok value, left) → Loading bytes start { loader with rest := left } →
      Proc.Ends (next value) { loader with rest := left } fun _ reached => Loading bytes start reached) :
    Proc.Ends (onRest body >>= next) loader fun _ reached => Loading bytes start reached := by
  have shorter := kept loader.rest loading.rest
  apply Proc.Ends.bind
  unfold Proc.Ends onRest Proc.zoom
  rcases outcome : body loader.rest with ⟨problem | value, left⟩ <;> rw [outcome] at shorter
  · exact ⟨shorter, loading.pin, loading.filled⟩
  · exact rest value left outcome ⟨shorter, loading.pin, loading.filled⟩

/-- A slot is free only as long as it has not been filled. -/
theorem Filled.freeSlot {ctx : Ctx} (filled : Filled bytes start ctx) {slot : CredSlot} (free : ctx.freeSlot = some slot) :
    ctx.credentials slot = start.credentials slot := by
  have unused : (ctx.credentials slot).inUse = false := by simpa using List.find?_some free
  rcases filled slot with same | record
  · exact same
  · rw [record.inUse] at unused
    cases unused

theorem Filled.put {ctx : Ctx} (filled : Filled bytes start ctx) {slot : CredSlot} {cred : Credential}
    (record : RecordOf bytes (start.credentials slot) cred) : Filled bytes start (ctx.putCredential slot cred) := by
  intro other
  by_cases here : other = slot
  · subst here
    right
    simpa only [Ctx.putCredential, Function.update_self] using record
  · simpa only [Ctx.putCredential, Function.update_of_ne here] using filled other

theorem loadEntry_loading : Proc.Preserves (Loading bytes start) (loadEntry protectV2) := by
  intro loader loading
  apply loading.read (takeNat_suffix 1)
  intro flag left _ loading
  apply Proc.Ends.ite
  · exact fun _ => .pure loading
  · intro _
    apply Proc.Ends.get
    cases free : loader.ctx.freeSlot with
    | none =>
      simp only [free]
      exact .fail loading
    | some slot =>
      have same := loading.filled.freeSlot free
      simp only [free]
      apply loading.read (readCredential_suffix _)
      intro cred last done reading
      rw [same] at done
      apply Proc.Ends.modify
      exact ⟨reading.rest, reading.pin, reading.filled.put ⟨left, last, loading.rest, done⟩⟩

theorem loadEntries_loading (start : Ctx) (count : Nat) (records : Bytes) (inside : records <:+ bytes) :
    (loadEntries protectV2 count records start).pin = start.pin ∧
      Filled bytes start (loadEntries protectV2 count records start) := by
  have reached := Proc.Preserves.repeatWith (fun _ => loadEntry_loading) (min count maxCredentialsStored) ()
    { rest := records, ctx := { start with credentialCount := 0 } } ⟨inside, rfl, fun _ => .inl rfl⟩
  exact ⟨reached.pin, reached.filled⟩

end

section
variable {crypto : Crypto} {env : Env} {key : Buf 32}

def Unsealed (crypto : Crypto) (key : Buf 32) (file : Bytes) (ctx after : Ctx) : Prop :=
  ∃ (size : Nat) (nonce : Buf 12) (text plain : Buf size) (tag : Buf 16),
    file = file.take 16 ++ nonce.bytes ++ text.bytes ++ tag.bytes ∧
    crypto.gcmOpen key nonce (file.take 16) text tag = some plain ∧
    after.pin = (PinState.ofBytes (plain.bytes.take pinStateSize)).wipeSession ∧ Filled plain.bytes ctx after

/-- Whatever a load installs has opened under the key. -/
def Authentic (crypto : Crypto) (key : Buf 32) (file : Bytes) (ctx after : Ctx) : Prop :=
  (after.credentials = ctx.credentials ∧ after.pin = ctx.pin) ∨ Unsealed crypto key file ctx after

theorem sliceAt_split {body : Bytes} {size : Nat} (nonce : 12 ≤ body.length) (whole : (body.drop 12).length = size + 16) :
    body = (sliceAt body 0 12).bytes ++ (sliceAt (body.drop 12) 0 size).bytes ++ (sliceAt (body.drop 12) size 16).bytes := by
  rw [sliceAt_bytes (by omega), sliceAt_bytes (by omega), sliceAt_bytes (by omega), List.drop_zero, List.drop_zero,
    List.append_assoc, ← List.take_add, ← whole, List.take_length, List.take_append_drop]

/-- A sealed body changes the context only if it opens, and then it does not fail. -/
theorem loadEncrypted_cases (crypto : Crypto) (key : Buf 32) (header : Bytes) (count : Nat) (body : Bytes) (ctx : Ctx) :
    (∃ problem, loadEncrypted crypto key header count body ctx = (.error problem, ctx)) ∨
    ∃ (size : Nat) (nonce : Buf 12) (text plain : Buf size) (tag : Buf 16),
      body = nonce.bytes ++ text.bytes ++ tag.bytes ∧ crypto.gcmOpen key nonce header text tag = some plain ∧
      loadEncrypted crypto key header count body ctx =
        (.ok (), loadEntries protectV2 count (plain.bytes.drop pinStateSize)
          { ctx with pin := (PinState.ofBytes (plain.bytes.take pinStateSize)).wipeSession }) := by
  unfold loadEncrypted
  split
  · exact .inl ⟨_, rfl⟩
  next nonce =>
    split
    · exact .inl ⟨_, rfl⟩
    next tag =>
      cases opened : crypto.gcmOpen key (sliceAt body 0 12) header (sliceAt (body.drop 12) 0 ((body.drop 12).length - 16))
          (sliceAt (body.drop 12) ((body.drop 12).length - 16) 16) with
      | none => exact .inl ⟨.cryptoMac, by simp only [opened]; rfl⟩
      | some plain =>
        simp only [opened]
        split
        · exact .inl ⟨_, rfl⟩
        · exact .inr ⟨_, _, _, plain, _, sliceAt_split (by omega) (by omega), opened, rfl⟩

def HasHeader (file : Bytes) : Prop := file.take 4 = storeMagic ∧ 16 ≤ file.length

/-- A file that is read as the plaintext format. -/
def Legacy (file : Bytes) : Prop := HasHeader file ∧ leNat (sliceAt file 4 4).bytes ≠ storeVersion

/-- What a failed load leaves as it was. -/
structure Kept (file : Bytes) (ctx after : Ctx) : Prop where
  credentials : after.credentials = ctx.credentials
  count : after.credentialCount = ctx.credentialCount
  pin : ¬ Legacy file → after.pin = ctx.pin
  signCount : ¬ HasHeader file → after.globalSignCount = ctx.globalSignCount

theorem Kept.refl (file : Bytes) (ctx : Ctx) : Kept file ctx ctx := ⟨rfl, rfl, fun _ => rfl, fun _ => rfl⟩

/-- A plaintext file fails before any record is read. -/
theorem loadLegacy_failed {count : Nat} {body : Bytes} {ctx : Ctx} {problem : StoreError}
    (failed : (loadLegacy crypto env count body ctx).1 = .error problem) :
    (loadLegacy crypto env count body ctx).2.credentials = ctx.credentials ∧
      (loadLegacy crypto env count body ctx).2.credentialCount = ctx.credentialCount := by
  unfold loadLegacy at failed ⊢
  rw [Proc.bind_of_ok (Proc.modify_apply _ _)] at failed ⊢
  split
  · exact ⟨rfl, rfl⟩
  next long =>
    rw [if_neg long, Proc.bind_of_ok (Proc.modify_apply _ _), Proc.bind_of_ok (Proc.get_apply _)] at failed
    split at failed
    · cases failed
    · cases failed

theorem loadFile_headless {file : Bytes} (missing : ¬ HasHeader file) (ctx : Ctx) :
    loadFile crypto env file ctx = (.error .io, ctx) := by
  unfold loadFile
  split
  · rfl
  next magic =>
    rw [if_pos (Nat.lt_of_not_le fun long => missing ⟨not_not.mp magic, long⟩)]
    rfl

theorem loadFile_legacy {file : Bytes} (legacy : Legacy file) (ctx : Ctx) :
    loadFile crypto env file ctx = loadLegacy crypto env (leNat (sliceAt file 8 4).bytes) (file.drop 16)
      { ctx with globalSignCount := uint32At file 12 } := by
  obtain ⟨⟨magic, long⟩, version⟩ := legacy
  unfold loadFile
  rw [if_neg (not_not.mpr magic), if_neg (by omega), Proc.bind_of_ok (Proc.modify_apply _ _),
    Proc.bind_of_ok (Proc.get_apply _), if_neg version]

/-- A file of the current version: the header it fails with may already be in the
counter, and nothing else. -/
theorem loadFile_sealed (crypto : Crypto) (env : Env) {file : Bytes} (header : HasHeader file)
    (current : ¬ Legacy file) {ctx : Ctx}
    (wrap : ctx.wrapKey = some key) :
    (∃ problem, loadFile crypto env file ctx = (.error problem, { ctx with globalSignCount := uint32At file 12 })) ∨
      (loadFile crypto env file ctx).1 = .ok () ∧ Unsealed crypto key file ctx (loadFile crypto env file ctx).2 := by
  have version : leNat (sliceAt file 4 4).bytes = storeVersion := by
    by_contra other
    exact current ⟨header, other⟩
  rw [loadFile_current header.1 header.2 version wrap]
  rcases loadEncrypted_cases crypto key (file.take 16) (leNat (sliceAt file 8 4).bytes) (file.drop 16)
    { ctx with globalSignCount := uint32At file 12 } with ⟨problem, failed⟩ | ⟨size, nonce, text, plain, tag, shape,
      opened, done⟩
  · exact .inl ⟨problem, failed⟩
  · obtain ⟨pin, filled⟩ := loadEntries_loading
      { ctx with
        globalSignCount := uint32At file 12, pin := (PinState.ofBytes (plain.bytes.take pinStateSize)).wipeSession }
      (leNat (sliceAt file 8 4).bytes) _ (List.drop_suffix pinStateSize plain.bytes)
    rw [done]
    refine .inr ⟨rfl, size, nonce, text, plain, tag, ?_, opened, pin, filled⟩
    rw [List.append_assoc, List.append_assoc, ← List.append_assoc nonce.bytes, ← shape, List.take_append_drop]

end

/-- With a wrap key, a file that is not in the plaintext format installs only what
opened under that key, and no file that fails to load touches the credentials. -/
theorem loading_is_authenticated (crypto : Crypto) (env : Env) (key : Buf 32) (file : Bytes) (ctx : Ctx)
    (wrap : ctx.wrapKey = some key) (disk : ctx.disk = some file) :
    (¬ Legacy file → Authentic crypto key file ctx (loadCredentials crypto env ctx).2) ∧
      ∀ problem, (loadCredentials crypto env ctx).1 = .error problem → Kept file ctx (loadCredentials crypto env ctx).2 := by
  rw [loadCredentials_file disk]
  by_cases header : HasHeader file
  · by_cases legacy : Legacy file
    · refine ⟨fun current => absurd legacy current, ?_⟩
      intro problem failed
      rw [loadFile_legacy legacy] at failed ⊢
      obtain ⟨credentials, count⟩ := loadLegacy_failed failed
      exact ⟨credentials, count, fun current => absurd legacy current, fun missing => absurd header missing⟩
    · rcases loadFile_sealed crypto env header legacy wrap with ⟨problem, failed⟩ | ⟨done, opened⟩
      · rw [failed]
        exact ⟨fun _ => .inl ⟨rfl, rfl⟩, fun _ _ => ⟨rfl, rfl, fun _ => rfl, fun missing => absurd header missing⟩⟩
      · refine ⟨fun _ => .inr opened, fun problem failed => ?_⟩
        rw [done] at failed
        cases failed
  · rw [loadFile_headless header]
    exact ⟨fun _ => .inl ⟨rfl, rfl⟩, fun _ _ => .refl file ctx⟩

/-- A context after start-up that finds a file. -/
def ctxWith (file : Bytes) : Ctx := { plainCtx false with disk := some file }

/-- The file a registration leaves. -/
def residentFile : Bytes := (saveCredentials tagCipher (plainEnv 0) (stateAfter (residentRequest 1 2))).2.disk.getD []

theorem loading_is_authenticated_resident :
    Authentic tagCipher (.zero 32) residentFile (ctxWith residentFile)
        (loadCredentials tagCipher (plainEnv 0) (ctxWith residentFile)).2 ∧
      (loadCredentials tagCipher (plainEnv 0) (ctxWith residentFile)).2.inUse.length = 1 := by
  have current : ¬ Legacy residentFile := fun legacy => legacy.2 (by decide +kernel)
  exact ⟨(loading_is_authenticated tagCipher (plainEnv 0) (.zero 32) residentFile (ctxWith residentFile) rfl rfl).1 current,
    by decide +kernel⟩

def pinFile : Bytes := storeHeader 1 0 0 ++ List.replicate pinStateSize 1

theorem loading_installs_plaintext_pin :
    ¬ ∀ crypto : Crypto, crypto.GcmExact → ∀ env key file (ctx : Ctx), ctx.wrapKey = some key → ctx.disk = some file →
      Authentic crypto key file ctx (loadCredentials crypto env ctx).2 ∧
        ∀ problem, (loadCredentials crypto env ctx).1 = .error problem →
          (loadCredentials crypto env ctx).2.credentials = ctx.credentials ∧
          (loadCredentials crypto env ctx).2.pin = ctx.pin ∧
          (loadCredentials crypto env ctx).2.credentialCount = ctx.credentialCount ∧
          (loadCredentials crypto env ctx).2.globalSignCount = ctx.globalSignCount := by
  intro claimed
  obtain ⟨installed, -⟩ := claimed tagCipher tagCipher_exact (plainEnv 0) (.zero 32) pinFile (ctxWith pinFile) rfl rfl
  rcases installed with ⟨-, pin⟩ | ⟨size, nonce, text, plain, tag, shape, opened, -, -⟩
  · have before : (ctxWith pinFile).pin.pinSet = false := rfl
    have after : (loadCredentials tagCipher (plainEnv 0) (ctxWith pinFile)).2.pin.pinSet = true := by decide +kernel
    rw [pin, before] at after
    cases after
  · -- the only tag that opens is all zeros, and the file ends in a one
    have sealed : tag = keyTag (.zero 32) := by
      by_contra other
      simp [tagCipher, other] at opened
    have last : pinFile.getLast? = some 1 := by decide +kernel
    rw [shape, sealed, List.getLast?_append] at last
    have zero : (keyTag (.zero 32)).bytes.getLast? = some 0 := by decide +kernel
    rw [zero] at last
    cases last

end Hiya.Fido2
