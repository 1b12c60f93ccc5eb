import Hiya.Daemon.ReadMethods
import Hiya.Library.Prefix
import Hiya.Proofs.EntryIds
import Hiya.Proofs.StrandedChanges

/-! What GetEntry returns of an entry that was updated, at once and when the vault has been
saved, locked and opened again. The url of an entry stands in a field of its own and at the
head of its list of urls, and an update changes the first only. -/

namespace Hiya.Daemon.Vaults
open Library Pm Pm.Store
open Pm.Format (Primitives ensure_eq_ok orFail_eq_ok ofPm_eq_ok vaultSerialize_written vaultDeserialize)

def escapedBytes : Bytes := 0x22 :: 0x5C :: (List.range 32).map UInt8.ofNat

theorem jsonEscape_plain {byte : UInt8} (plain : byte ∉ escapedBytes) : jsonEscape byte = [byte] ∧ byte ≠ 0x22 ∧
    byte ≠ 0x5C := by
  obtain ⟨quote, backslash, high⟩ : byte ≠ 0x22 ∧ byte ≠ 0x5C ∧ ¬ byte < 0x20 := by
    refine ⟨fun same => plain (same ▸ List.mem_cons_self),
      fun same => plain (same ▸ List.mem_cons_of_mem _ List.mem_cons_self), fun low => ?_⟩
    have small := UInt8.lt_iff_toNat_lt.mp low
    refine plain (List.mem_cons_of_mem _ (List.mem_cons_of_mem _
      (List.mem_map.mpr ⟨byte.toNat, List.mem_range.mpr small, ?_⟩)))
    exact UInt8.ofNat_toNat
  have other {value : UInt8} (low : value < 0x20) : byte ≠ value := fun same => high (same ▸ low)
  refine ⟨?_, quote, backslash⟩
  unfold jsonEscape
  rw [if_neg quote, if_neg backslash, if_neg (other (by decide)), if_neg (other (by decide)), if_neg (other (by decide)),
    if_neg (other (by decide)), if_neg (other (by decide)), if_neg high]

theorem jsonEscape_escaped : ∀ byte ∈ escapedBytes, (jsonEscape byte).head? = some 0x5C := by decide +kernel

theorem jsonEscape_alone : ∀ first ∈ escapedBytes, ∀ second ∈ escapedBytes, jsonEscape first <+: jsonEscape second →
    first = second := by
  decide +kernel

theorem jsonEscape_head (byte : UInt8) : ∃ tail, (byte ∈ escapedBytes ∧ jsonEscape byte = 0x5C :: tail) ∨
    (byte ∉ escapedBytes ∧ jsonEscape byte = [byte] ∧ byte ≠ 0x22 ∧ byte ≠ 0x5C) := by
  by_cases escaped : byte ∈ escapedBytes
  · have head := jsonEscape_escaped byte escaped
    cases spelled : jsonEscape byte with
    | nil =>
      rw [spelled] at head
      cases head
    | cons first tail =>
      rw [spelled] at head
      cases head
      exact ⟨tail, Or.inl ⟨escaped, rfl⟩⟩
  · exact ⟨[], Or.inr ⟨escaped, jsonEscape_plain escaped⟩⟩

theorem spelling_jsonEscape : Spelling jsonEscape 0x22 := by
  refine .of_front (fun first second front => ?_) fun byte => ?_
  · obtain ⟨_, one⟩ := jsonEscape_head first
    obtain ⟨_, two⟩ := jsonEscape_head second
    obtain ⟨escaped, spelled⟩ | ⟨_, spelled, _, plain⟩ := one
    · obtain ⟨also, _⟩ | ⟨_, other, _, plain⟩ := two
      · exact jsonEscape_alone first escaped second also front
      · rw [spelled, other] at front
        exact absurd (List.cons_prefix_cons.mp front).1.symm plain
    · obtain ⟨_, other⟩ | ⟨_, other, _, _⟩ := two
      · rw [spelled, other] at front
        exact absurd (List.cons_prefix_cons.mp front).1 plain
      · rw [spelled, other] at front
        exact (List.cons_prefix_cons.mp front).1
  · obtain ⟨tail, ⟨_, spelled⟩ | ⟨_, spelled, plain, _⟩⟩ := jsonEscape_head byte
    · exact ⟨_, _, spelled, by decide⟩
    · exact ⟨_, _, spelled, plain⟩

theorem jsonMember_inj {front : String} {first second : CStr} {rest more : Bytes}
    (same : jsonMember front first rest = jsonMember front second more) : first = second ∧ rest = more := by
  unfold jsonMember jsonString at same
  simp only [List.append_assoc, List.cons_append, List.nil_append] at same
  obtain ⟨bytes, behind⟩ := spelling_jsonEscape.injective (List.cons.inj (List.append_cancel_left same)).2
  exact ⟨CStr.ext_bytes bytes, behind⟩

structure Face where
  title : CStr
  username : CStr
  password : CStr
  url : CStr
  notes : CStr

def face (entry : Entry) : Face where
  title := entry.title
  username := entry.username
  password := entry.password
  url := entry.url
  notes := entry.notes

theorem face_of_entryJson {first second : Entry} (same : entryJson first = entryJson second) : face first = face second := by
  unfold entryJson at same
  obtain ⟨-, same⟩ := jsonMember_inj same
  obtain ⟨title, same⟩ := jsonMember_inj same
  obtain ⟨username, same⟩ := jsonMember_inj same
  obtain ⟨password, same⟩ := jsonMember_inj same
  obtain ⟨url, same⟩ := jsonMember_inj same
  obtain ⟨notes, -⟩ := jsonMember_inj same
  unfold face
  rw [title, username, password, url, notes]

section
variable {entryId : CStr} {contents before after : VaultHandle} {entry replacement : Entry}

theorem readEntry_of_found {payload : Payload} (valid : entryId ≠ .empty)
    (model : vaultGetPayloadModel contents = (.ok payload, contents))
    (found : payload.entries.find? (·.id = entryId) = some entry) : readEntry entryId contents = .ok entry := by
  obtain ⟨-, -, decoded⟩ := getPayloadModel_ok model
  have good := (payloadOk_of_decode decoded).entries entry (List.mem_of_find?_eq_some found)
  unfold readEntry vaultEntryGet
  rw [if_neg (by simpa [validEntryId] using valid), Proc.bind_of_ok model, found]
  dsimp only
  rw [entryClone_ok good]
  rfl

theorem find_updated {entries : List Entry} (same : replacement.id = entryId)
    (found : entries.find? (·.id = entryId) = some entry) :
    (entries.map (updatedEntry entryId replacement)).find? (·.id = entryId) = some (superseded replacement entry) := by
  induction entries with
  | nil => cases found
  | cons first rest ih =>
    by_cases here : first.id = entryId
    · rw [List.find?_cons_of_pos (by simpa using here)] at found
      cases found
      have made : updatedEntry entryId replacement entry = superseded replacement entry := if_pos here
      have named : (superseded replacement entry).id = entryId := same
      rw [List.map_cons, made, List.find?_cons_of_pos (by simpa using named)]
    · rw [List.find?_cons_of_neg (by simpa using here)] at found
      have made : updatedEntry entryId replacement first = first := if_neg here
      rw [List.map_cons, made, List.find?_cons_of_neg (by simpa using here)]
      exact ih found

/-- What is read after an update is the replacement, with the entry as it was on top of the history. -/
theorem readEntry_updated (read : readEntry entryId before = .ok entry) (raw : EntryRawOk replacement)
    (same : replacement.id = entryId)
    (done : vaultEntryUpdate entryId replacement before = (.ok (), after)) :
    readEntry entryId after = .ok (superseded replacement entry) := by
  obtain ⟨valid, payload, model, found, -⟩ := readEntry_ok read
  exact readEntry_of_found valid (update_installs model raw done) (find_updated same found)

end

section
variable {lib : Primitives} {env : Env} {slot after : VaultSlot} {handle : Handle}

structure Changed (lib : Primitives) (env : Env) (slot : VaultSlot) (handle : Handle) (made : Plan) (after : VaultSlot) where
  contents : VaultHandle
  saved : Handle
  blob : Bytes
  applied : made.edit.apply handle.contents = (.ok (), contents)
  written : vaultSave lib env.store { handle with contents } = .ok (saved, blob)
  file : after.file = some blob
  handle : after.handle = some saved

theorem applyPlan_ok {texts : Texts} {plan : Plan} {reply : Reply}
    (done : applyPlan lib env texts plan handle slot = (.ok reply, after)) :
    Nonempty (Changed lib env slot handle plan after) := by
  unfold applyPlan at done
  rcases applied : plan.edit.apply handle.contents with ⟨problem | _, contents⟩
  · rw [applied] at done
    cases done
  · rw [applied] at done
    dsimp only at done
    rcases written : vaultSave lib env.store { handle with contents } with problem | ⟨saved, blob⟩
    · rw [written] at done
      cases done
    · rw [written] at done
      dsimp only at done
      cases answer : plan.reply with
      | error error =>
        rw [answer] at done
        cases done
      | ok reply =>
        rw [answer] at done
        cases done
        exact ⟨contents, saved, blob, applied, written, rfl, rfl⟩

theorem changeVault_ok {texts : Texts} {checked : Except MethodError Unit} {plan : VaultHandle →
    Except MethodError Plan} {reply : Reply}
    (there : slot.handle = some handle) (unlocked : handle.contents.locked = false)
    (done : changeVault lib env texts checked plan slot = (.ok reply, after)) :
    ∃ made, plan handle.contents = .ok made ∧ Nonempty (Changed lib env slot handle made after) := by
  have found : ensureUserVaultHandle env slot = .ok handle := by
    unfold ensureUserVaultHandle
    rw [there]
  have same : ({ slot with handle := some handle } : VaultSlot) = slot := by rw [← there]
  unfold changeVault at done
  cases checked with
  | error error => cases done
  | ok _ =>
    rw [found] at done
    dsimp only at done
    rw [same, unlocked, if_neg Bool.false_ne_true] at done
    cases planned : plan handle.contents with
    | error error =>
      rw [planned] at done
      cases done
    | ok made =>
      rw [planned] at done
      exact ⟨made, rfl, applyPlan_ok done⟩

theorem readFileAll_ok {later : Store.Env} {file : Option Bytes} {bytes : Bytes} (read : readFileAll later file = .ok bytes) :
    file = some bytes := by
  unfold readFileAll at read
  obtain ⟨found, there, read⟩ := bind_eq_ok.mp read
  obtain ⟨_, -, read⟩ := bind_eq_ok.mp read
  obtain ⟨_, -, read⟩ := bind_eq_ok.mp read
  obtain ⟨_, -, read⟩ := bind_eq_ok.mp read
  cases read
  exact orFail_eq_ok.mp there

/-- To be read at all, a file needs the library and memory for its payload. -/
theorem deserialize_served {later : Format.Env} {blob : Bytes} {key : Buf Format.masterKeySize} {result : Format.ReadResult}
    (read : vaultDeserialize lib later blob key = .ok result) :
    later.cryptoReady = true ∧ ∃ metadata, Format.vaultParseMetadata blob = .ok metadata ∧
    later.malloc metadata.payloadLen = true := by
  unfold vaultDeserialize at read
  obtain ⟨_, ready, read⟩ := bind_eq_ok.mp read
  obtain ⟨metadata, parsed, read⟩ := bind_eq_ok.mp read
  obtain ⟨_, -, read⟩ := bind_eq_ok.mp read
  obtain ⟨_, -, read⟩ := bind_eq_ok.mp read
  obtain ⟨_, -, read⟩ := bind_eq_ok.mp read
  obtain ⟨_, -, read⟩ := bind_eq_ok.mp read
  obtain ⟨_, room, -⟩ := bind_eq_ok.mp read
  exact ⟨ensure_eq_ok.mp ready, metadata, parsed, ensure_eq_ok.mp room⟩

/-- A vault that is unlocked with the key it was saved under has the contents it was saved with. -/
theorem saved_unlocks {argon2id : Argon2id} (lawful : lib.Lawful) {storeEnv later : Store.Env} {saved : Handle}
    {blob : Bytes} {factors : Factors}
    {key : Buf Format.masterKeySize} {shut opened : Handle} (written : vaultSave lib storeEnv handle = .ok (saved, blob))
    (keyed : handle.masterKey = some key) (locked : shut.contents.locked = true)
    (derived : deriveMasterKey argon2id factors shut = .ok key)
    (unlocked : vaultUnlock argon2id lib later factors (some blob) shut = .ok opened) :
    opened.contents = handle.contents := by
  obtain ⟨stored, -⟩ := vaultSave_stored written
  obtain ⟨held, env, same, serialized⟩ := stored.file
  rw [keyed] at same
  cases same
  obtain ⟨file, shape⟩ := vaultSerialize_written serialized
  unfold vaultUnlock at unlocked
  rw [if_neg (by rw [locked]; exact Bool.noConfusion)] at unlocked
  obtain ⟨again, rederived, unlocked⟩ := bind_eq_ok.mp unlocked
  obtain rfl : again = key := Except.ok.inj ((ofPm_eq_ok.mp rederived).symm.trans derived)
  obtain ⟨bytes, fetched, unlocked⟩ := bind_eq_ok.mp unlocked
  obtain rfl := Option.some.inj (readFileAll_ok (ofPm_eq_ok.mp fetched))
  obtain ⟨result, read, unlocked⟩ := bind_eq_ok.mp unlocked
  obtain ⟨_, -, unlocked⟩ := bind_eq_ok.mp unlocked
  cases unlocked
  obtain ⟨ready, metadata, parsed, room⟩ := deserialize_served read
  rw [shape] at parsed read
  have known := (file.parses lawful).symm.trans parsed
  have length : metadata.payloadLen = handle.contents.payload.length := by
    rw [← Except.ok.inj known]
    rfl
  rw [length] at room
  have payload := congrArg (Except.map Format.ReadResult.payload)
    (read.symm.trans (file.deserializes lawful ready (Bool.and_eq_true_iff.mp room).2))
  have same : result.payload = handle.contents.payload := Except.ok.inj payload
  rw [same]
  exact congrArg (fun locked => VaultHandle.mk locked handle.contents.payload) stored.unlocked.symm

end

/-- What an update supplies for an entry. -/
inductive Call.Updates : Call → CStr → Changes → Prop
  | entry : Updates (.updateEntry entryId url username password title) entryId
      { url := some url, username := some username, password := some password, title := some title, notes := none }
  | credential : Updates (.updateCredential entryId fields) entryId (.ofFields fields)

/-- The supplied values are there. No empty url, password or title counts as supplied. -/
structure Changes.Shown (changes : Changes) (shown : Face) : Prop where
  url : ∀ value, changes.url = some value → value ≠ .empty → shown.url = value
  username : ∀ value, changes.username = some value → shown.username = value
  password : ∀ value, changes.password = some value → value ≠ .empty → shown.password = value
  title : ∀ value, changes.title = some value → value ≠ .empty → shown.title = value
  notes : ∀ value, changes.notes = some value → shown.notes = value

/-- GetEntry returns the supplied values. -/
def Returns (entryId : CStr) (changes : Changes) (slot : VaultSlot) : Prop :=
  ∀ env : Env, ∃ entry, (getEntry env entryId slot).1 = .ok (entryJson entry) ∧ changes.Shown (face entry)

/-- When the values get through: the entry has no urls yet, or the first of them is the one
that is supplied, and there is memory for the copies. -/
structure Changes.Lasts (env : Env) (changes : Changes) (entry : Entry) : Prop where
  url : ∀ value, changes.url = some value → value ≠ .empty → entry.urls.head? = some value ∨
    (entry.urls = [] ∧ env.copies 0 = true)
  username : ∀ value, changes.username = some value → value = .empty ∨ env.copies 1 = true
  password : ∀ value, changes.password = some value → value = .empty ∨ env.copies 2 = true
  title : ∀ value, changes.title = some value → value = .empty ∨ env.copies 3 = true
  notes : ∀ value, changes.notes = some value → value = .empty ∨ env.copies 4 = true

/-- The vault is saved once more, or not, then locked, and opened again with its key. -/
inductive Reopened (argon2id : Argon2id) (lib : Primitives) (slot : VaultSlot) : VaultSlot → Prop
  | intro {handle shut opened : Handle} {key : Buf Format.masterKeySize} {blob : Bytes} {later : Store.Env}
    {factors : Factors}
      {reopened : VaultSlot} (there : slot.handle = some handle) (keyed : handle.masterKey = some key)
      (kept : slot.file = some blob ∨ ∃ storeEnv saved, vaultSave lib storeEnv handle = .ok (saved, blob))
      (locked : shut.contents.locked = true)
      (derived : deriveMasterKey argon2id factors shut = .ok key)
      (unlocked : vaultUnlock argon2id lib later factors (some blob) shut = .ok opened)
      (here : reopened.handle = some opened) : Reopened argon2id lib slot reopened

section
variable {lib : Primitives} {env : Env} {slot after : VaultSlot} {handle : Handle} {entryId : CStr} {changes : Changes}
    {entry : Entry}

theorem ensureUrlAlias_url (url : CStr) (urls : List CStr) : (ensureUrlAlias (some url) urls).1 = urls.headD url := by
  unfold ensureUrlAlias
  dsimp only [Option.getD_some]
  cases urls with
  | nil =>
    by_cases empty : url = .empty
    · rw [if_neg fun wrong => wrong.2 empty]
    · rw [if_pos ⟨rfl, empty⟩]
      rfl
  | cons first rest => rw [if_neg fun wrong => List.cons_ne_nil first rest wrong.1]

theorem strdup_eq_iff {index : Nat} {value : CStr} : strdup env index value = value ↔ value = .empty ∨
    env.copies index = true := by
  unfold strdup
  split
  next copied => exact iff_of_true rfl (Or.inr copied)
  next failed => exact ⟨fun same => Or.inl same.symm, fun either => (either.resolve_right failed).symm⟩

/-- The url that is shown is the first of the list, unless there is none. -/
theorem updated_url : (face (superseded (changedEntry env changes entry) entry)).url =
    entry.urls.headD (setNonempty env 0 changes.url entry.url) :=
  ensureUrlAlias_url _ _

theorem setNonempty_supplied {index : Nat} {value old : CStr} (some : value ≠ .empty) :
    setNonempty env index (.some value) old = strdup env index value := by
  unfold setNonempty
  rw [if_neg fun wrong => some (Option.some.inj wrong)]
  rfl

theorem shown_iff : changes.Shown (face (superseded (changedEntry env changes entry) entry)) ↔ changes.Lasts env entry := by
  have url (value : CStr) (given : changes.url = some value) (nonempty : value ≠ .empty) :
      (face (superseded (changedEntry env changes entry) entry)).url = value ↔
        entry.urls.head? = some value ∨ (entry.urls = [] ∧ env.copies 0 = true) := by
    rw [updated_url, given, setNonempty_supplied nonempty]
    cases entry.urls with
    | nil =>
      refine strdup_eq_iff.trans ⟨fun either => Or.inr ⟨rfl, either.resolve_left nonempty⟩, fun either => Or.inr ?_⟩
      obtain wrong | ⟨_, copied⟩ := either
      · cases wrong
      · exact copied
    | cons first rest =>
      refine ⟨fun same => Or.inl (congrArg some same), fun either => ?_⟩
      obtain same | ⟨wrong, _⟩ := either
      · exact Option.some.inj same
      · cases wrong
  have username : (face (superseded (changedEntry env changes entry) entry)).username =
    setGiven env 1 changes.username entry.username := rfl
  have password : (face (superseded (changedEntry env changes entry) entry)).password =
    setNonempty env 2 changes.password entry.password := rfl
  have title : (face (superseded (changedEntry env changes entry) entry)).title =
    setNonempty env 3 changes.title entry.title := rfl
  have notes : (face (superseded (changedEntry env changes entry) entry)).notes =
    setGiven env 4 changes.notes entry.notes := rfl
  constructor
  · intro shown
    refine ⟨fun value given nonempty => (url value given nonempty).mp (shown.url value given nonempty),
      fun value given => ?_, fun value given => ?_,
      fun value given => ?_, fun value given => ?_⟩
    · have same := shown.username value given
      rw [username, given] at same
      exact strdup_eq_iff.mp same
    · by_cases nonempty : value = .empty
      · exact Or.inl nonempty
      · have same := shown.password value given nonempty
        rw [password, given, setNonempty_supplied nonempty] at same
        exact strdup_eq_iff.mp same
    · by_cases nonempty : value = .empty
      · exact Or.inl nonempty
      · have same := shown.title value given nonempty
        rw [title, given, setNonempty_supplied nonempty] at same
        exact strdup_eq_iff.mp same
    · have same := shown.notes value given
      rw [notes, given] at same
      exact strdup_eq_iff.mp same
  · intro lasts
    refine ⟨fun value given nonempty => (url value given nonempty).mpr (lasts.url value given nonempty),
      fun value given => ?_,
      fun value given nonempty => ?_, fun value given nonempty => ?_, fun value given => ?_⟩
    · rw [username, given]
      exact strdup_eq_iff.mpr (lasts.username value given)
    · rw [password, given, setNonempty_supplied nonempty]
      exact strdup_eq_iff.mpr (lasts.password value given)
    · rw [title, given, setNonempty_supplied nonempty]
      exact strdup_eq_iff.mpr (lasts.title value given)
    · rw [notes, given]
      exact strdup_eq_iff.mpr (lasts.notes value given)

theorem getEntry_read {env : Env} (there : slot.handle = some handle) (read : readEntry entryId handle.contents = .ok entry) :
    (getEntry env entryId slot).1 = .ok (entryJson entry) := by
  obtain ⟨valid, payload, model, -, -⟩ := readEntry_ok read
  have unlocked := (getPayloadModel_ok model).2.1
  have checked : entryIdChecked entryId = .ok () := Format.ensure_ok valid
  have found : ensureUserVaultHandle env slot = .ok handle := by
    unfold ensureUserVaultHandle
    rw [there]
  unfold getEntry
  rw [checked, found]
  dsimp only
  rw [unlocked, if_neg Bool.false_ne_true, read]

theorem returns_iff (there : slot.handle = some handle) (read : readEntry entryId handle.contents = .ok entry) :
    Returns entryId changes slot ↔ changes.Shown (face entry) := by
  constructor
  · intro returns
    obtain ⟨other, answer, shown⟩ := returns {
      store := { format := { cryptoReady := true, randomSalt := none, randomIv := none, allocates := fun _ => true }
                 handleMemory := true, keyMemory := .ok (), readable := true, writable := true }
      slotFree := true, nowMs := 0, now := 0, uuid := none, entryMemory := true, copies :=
        fun _ => true, replyMemory := true }
    rw [getEntry_read there read] at answer
    rwa [face_of_entryJson (Except.ok.inj answer)]
  · exact fun shown env => ⟨entry, getEntry_read there read, shown⟩

/-- The entry that a vault keeps of a change is read from it at once and when it is opened again. -/
theorem Changed.reads {made : Plan} (changed : Changed lib env slot handle made after)
    (read : readEntry entryId changed.contents = .ok entry) :
    ∃ saved, after.handle = some saved ∧ readEntry entryId saved.contents = .ok entry := by
  refine ⟨changed.saved, changed.handle, ?_⟩
  rwa [vaultSave_contents changed.written]

theorem Changed.reopens {made : Plan} {argon2id : Argon2id} (changed : Changed lib env slot handle made after)
    (lawful : lib.Lawful)
    {reopened : VaultSlot} (again : Reopened argon2id lib after reopened)
    (read : readEntry entryId changed.contents = .ok entry) :
    ∃ opened, reopened.handle = some opened ∧ readEntry entryId opened.contents = .ok entry := by
  obtain ⟨there, keyed, kept, locked, derived, unlocked, here⟩ := again
  obtain rfl := Option.some.inj (changed.handle.symm.trans there)
  have saved := (vaultSave_stored changed.written).2
  refine ⟨_, here, ?_⟩
  obtain same | ⟨storeEnv, twice, written⟩ := kept
  · obtain rfl := Option.some.inj (changed.file.symm.trans same)
    rw [saved] at keyed
    rwa [saved_unlocks lawful changed.written keyed locked derived unlocked]
  · rwa [saved_unlocks lawful written keyed locked derived unlocked, vaultSave_contents changed.written]

theorem update_changed (there : slot.handle = some handle) (unlocked : handle.contents.locked = false)
    {otpImportFromQr : OtpImport} {call : Call}
    {reply : Reply} (updates : call.Updates entryId changes)
    (done : call.run otpImportFromQr lib env slot = (.ok reply, after)) :
    ∃ made, updatePlan env entryId changes handle.contents = .ok made ∧
    Nonempty (Changed lib env slot handle made after) := by
  cases updates with
  | entry => exact changeVault_ok there unlocked done
  | credential => exact changeVault_ok there unlocked done

/-- The entry that an update leaves in the vault. -/
theorem update_stores {made : Plan} (read : readEntry entryId handle.contents = .ok entry)
    (planned : updatePlan env entryId changes handle.contents = .ok made) (changed : Changed lib env slot handle made after) :
    readEntry entryId changed.contents = .ok (superseded (changedEntry env changes entry) entry) := by
  obtain ⟨_, payload, _, found, ok⟩ := readEntry_ok read
  have named : entry.id = entryId := by simpa using List.find?_some found
  unfold updatePlan at planned
  rw [read] at planned
  cases planned
  have raw : EntryRawOk (changedEntry env changes entry) := { EntryOk.raw ok with }
  exact readEntry_updated read raw named changed.applied

end

/-- After an update that succeeds, GetEntry returns what was supplied, at once and from the vault
that is opened again, exactly when each supplied value gets through. -/
theorem update_returned_iff (argon2id : Argon2id) (otpImportFromQr : OtpImport) (lib : Primitives)
    (lawful : lib.Lawful) (env : Env) (call : Call)
    (entryId : CStr) (changes : Changes) (updates : call.Updates entryId changes) (slot after : VaultSlot) (handle : Handle)
    (there : slot.handle = some handle) (unlocked : handle.contents.locked = false) (entry : Entry)
    (stored : readEntry entryId handle.contents = .ok entry) (reply : Reply)
    (done : call.run otpImportFromQr lib env slot = (.ok reply, after)) :
    (Returns entryId changes after ∧ ∀ reopened, Reopened argon2id lib after reopened → Returns entryId changes reopened) ↔
      changes.Lasts env entry := by
  obtain ⟨made, planned, ⟨changed⟩⟩ := update_changed there unlocked updates done
  have read := update_stores stored planned changed
  obtain ⟨saved, here, once⟩ := changed.reads read
  rw [returns_iff here once, shown_iff]
  refine ⟨fun both => both.1, fun lasts => ⟨lasts, fun reopened again => ?_⟩⟩
  obtain ⟨opened, there, twice⟩ := changed.reopens lawful again read
  exact (returns_iff there twice).mpr (shown_iff.mpr lasts)

def urlB : CStr := idB
def urlC : CStr := ⟨[0x63], by decide, by decide⟩

def urlVault : VaultHandle :=
  { locked := false, payload := [0xA4, 1, 1, 2, 1, 3, 1, 4, 0x81, 0xA2, 1, 0x61, 0x61, 5, 0x61, 0x62] }

def openHandle (contents : VaultHandle) : Handle where
  format := { versionMajor := 1, versionMinor := 0, flags := 4, fileSequence := 7, argon2 := Format.defaultArgon2, compositeMode := 9 }
  mode := ⟨false, false, true, false⟩
  salt := .zero _
  masterKey := some (.zero _)
  contents

def slotOf (contents : VaultHandle) : VaultSlot := { openSlot with handle := some (openHandle contents) }

def storedA (contents : VaultHandle) : Entry := (readEntry idA contents).toOption.getD entryInit

def urlChange (url : CStr) : Call := .updateEntry idA url .empty .empty .empty

def urlChanges (url : CStr) : Changes :=
  { url := some url, username := some .empty, password := some .empty, title := some .empty, notes := none }

def changedSlot (contents : VaultHandle) (url : CStr) : VaultSlot :=
    ((urlChange url).run noImport Format.plainly (onDisk true) (slotOf contents)).2

theorem urlChange_done (contents : VaultHandle) (url : CStr)
    (done : ((urlChange url).run noImport Format.plainly (onDisk true) (slotOf contents)).1 = .ok .nothing) :
    (urlChange url).run noImport Format.plainly (onDisk true) (slotOf contents) =
    (.ok .nothing, changedSlot contents url) := Prod.ext done rfl

/-- An entry without a url gets one. -/
theorem update_returned_iff_added : Returns idA (urlChanges urlB) (changedSlot singleVault urlB) ∧
    ∀ reopened, Reopened noArgon2id Format.plainly (changedSlot singleVault urlB) reopened →
    Returns idA (urlChanges urlB) reopened := by
  refine (update_returned_iff noArgon2id noImport Format.plainly Format.plainly_lawful (onDisk true)
    (urlChange urlB) idA (urlChanges urlB) .entry
    (slotOf singleVault) (changedSlot singleVault urlB) (openHandle singleVault) rfl rfl (storedA singleVault)
      (by decide +kernel) .nothing
    (urlChange_done singleVault urlB (by decide +kernel))).mpr ⟨fun value given _ => ?_, fun _ _ => Or.inr rfl,
      fun _ _ => Or.inr rfl, fun _ _ => Or.inr rfl, nofun⟩
  exact Or.inr ⟨by decide +kernel, rfl⟩

/-- The old url comes back although the update has succeeded. -/
theorem changed_url_reverts : ¬ ∀ (argon2id : Argon2id) (otpImportFromQr : OtpImport) (lib : Primitives) (env : Env)
    (call : Call)
    (entryId : CStr) (changes : Changes) (slot after : VaultSlot) (handle : Handle) (entry : Entry) (reply : Reply),
    lib.Lawful → call.Updates entryId changes → slot.handle = some handle → handle.contents.locked = false →
    readEntry entryId handle.contents = .ok entry → call.run otpImportFromQr lib env slot = (.ok reply, after) →
    Returns entryId changes after ∧ ∀ reopened, Reopened argon2id lib after reopened → Returns entryId changes reopened := by
  intro always
  have stored : readEntry idA (openHandle urlVault).contents = .ok (storedA urlVault) := by decide +kernel
  have done := urlChange_done urlVault urlC (by decide +kernel)
  have both := always noArgon2id noImport Format.plainly (onDisk true) (urlChange urlC) idA (urlChanges urlC)
    (slotOf urlVault) _ _ _ _
    Format.plainly_lawful .entry rfl rfl stored done
  obtain ⟨made, planned, ⟨changed⟩⟩ := update_changed rfl rfl .entry done
  obtain ⟨saved, here, read⟩ := changed.reads (update_stores stored planned changed)
  have lasts := shown_iff.mp ((returns_iff here read).mp both.1)
  have known : (storedA urlVault).urls = [urlB] := by decide +kernel
  obtain wrong | ⟨wrong, _⟩ := lasts.url urlC rfl (by decide)
  · rw [known] at wrong
    exact absurd wrong (by decide)
  · rw [known] at wrong
    cases wrong

end Hiya.Daemon.Vaults
