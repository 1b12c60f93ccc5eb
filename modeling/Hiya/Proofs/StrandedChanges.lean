import Hiya.Daemon.VaultMethods
import Hiya.Proofs.EntryIds
import Hiya.Proofs.SharedVaults

/-! Calls that fail after they have changed the vault. A change is made in memory and then
saved; if the save fails the caller is told so, but the change stays where it is. -/

namespace Hiya.Pm
open Library Cbor

def Fits (payload : Payload) : Prop := ContainersFit payload ∧ encodedSize payload ≤ 2 ^ 31

def written (payload : Payload) : Bytes := bytesOf (payloadTokens payload)

/-- What the vault holds afterwards is not what it holds. Its bytes may be others than those that
are written for the same payload. -/
def Differs (handle : VaultHandle) (before after : Payload) : Prop := after ≠ before ∨ handle.payload ≠ written before

section
variable {handle last : VaultHandle} {before after : Payload}

theorem written_ne_nil (ok : PayloadOk before) : written before ≠ [] :=
    List.length_pos_iff.mp (solid_payloadTokens ok).bytesOf_pos

theorem setPayloadModel_iff (ok : PayloadOk after) (unlocked : handle.locked = false) :
    vaultSetPayloadModel after handle = (.ok (), last) ↔ Fits after ∧ last = { handle with payload := written after } := by
  have some : bytesOf (payloadTokens after) ≠ [] := written_ne_nil ok
  unfold vaultSetPayloadModel
  rw [Proc.bind_of_ok (Proc.get_apply handle), payloadEncodeCbor_eq ok]
  by_cases fits : Fits after
  · rw [if_pos (show ContainersFit after ∧ encodedSize after ≤ 2 ^ 31 from fits)]
    simp only [unlocked, Bool.false_eq_true, if_false, liftVault, pure_bind, vaultSetPayload, Proc.bind_apply, Proc.get_apply,
      if_neg some, decode_payloadTokens ok, Proc.modify_apply, Prod.mk.injEq, true_and, fits]
    exact eq_comm
  · rw [if_neg (show ¬ (ContainersFit after ∧ encodedSize after ≤ 2 ^ 31) from fits)]
    simp [unlocked, liftVault, Proc.bind_apply, fits]

theorem written_ne_iff (read : vaultGetPayloadModel handle = (.ok before, handle)) (ok : PayloadOk after) :
    written after ≠ handle.payload ↔ Differs handle before after := by
  have decoded := (getPayloadModel_ok read).2.2
  refine ⟨fun other => ?_, fun differs same => ?_⟩
  · by_contra alike
    obtain ⟨rfl, plain⟩ : after = before ∧ handle.payload = written before := by simpa [Differs] using alike
    exact other plain.symm
  · rw [← same] at decoded
    have equal : after = before := Except.ok.inj ((decode_payloadTokens ok).symm.trans decoded)
    rcases differs with other | plain
    · exact other equal
    · exact plain (same ▸ equal ▸ rfl)

end

section
variable {entryId : CStr} {replacement source : Entry}

theorem entryClone_done {entry : Entry} (valid : validateEntryModel entry = .ok ()) :
    entryClone entry = .ok (ensureEntryUrlAlias entry) := by
  have revisions : entry.history.forM validateHistoryRevisionModel = .ok () := by
    unfold validateEntryModel at valid
    split at valid
    · cases valid
    · exact valid
  unfold entryClone
  rw [valid, revisions]
  rfl

theorem historyPush_done {entry : Entry} {revision : HistoryRevision} (few : entry.history.length ≤ historyMaxRevisions)
    (valid : validateHistoryRevisionModel revision = .ok ()) : ∃ pushed, historyPush entry revision = .ok pushed := by
  unfold historyPush
  rw [if_neg (Nat.not_lt.mpr few), valid]
  by_cases room : entry.history.length < historyMaxRevisions
  · exact ⟨_, if_pos room⟩
  · exact ⟨_, if_neg room⟩

theorem replaceEntry_done (ok : EntryOk source) (valid : validateEntryModel replacement = .ok ()) :
    replaceEntry replacement source = .ok (superseded replacement source) := by
  have passes (time : UInt64) : validateHistoryRevisionModel (snapshot source time) = .ok () :=
    if_neg (Nat.not_lt.mpr ok.tags)
  have few : replacement.history.length ≤ historyMaxRevisions := by
    unfold validateEntryModel at valid
    split at valid
    · cases valid
    next bounds => exact Nat.not_lt.mp fun many => bounds (by simp [historyMaxRevisions] at many; simp [many])
  have made : entryRevisionFromEntry source (revisionTime replacement source) .empty .empty =
    .ok (snapshot source (revisionTime replacement source)) := by
    change (validateHistoryRevisionModel (snapshot source _) >>= fun _ => pure _) = _
    rw [passes]
    rfl
  obtain ⟨pushed, pushes⟩ := historyPush_done (show (ensureEntryUrlAlias replacement).history.length ≤ _ from few)
    (passes (revisionTime replacement source))
  have done : replaceEntry replacement source = .ok pushed := by
    unfold replaceEntry
    rw [entryClone_done valid]
    change (entryRevisionFromEntry source (revisionTime replacement source) .empty .empty >>= fun revision =>
      historyPush (ensureEntryUrlAlias replacement) revision) = _
    rw [made]
    exact pushes
  rw [done, replaceEntry_eq done]

/-- A loop over entries that are kept or left out, where there is room for all of them. -/
theorem update_loop_done (raw : EntryRawOk replacement) (valid : validateEntryModel replacement = .ok ())
    {sources : List Entry}
    (ok : ∀ source ∈ sources, EntryOk source) {updated : Payload}
    (room : updated.entries.length + sources.length ≤ maxEntries) (found : Bool) :
    sources.foldlM (updateStep entryId replacement) (updated, found) =
      .ok ({ updated with entries := updated.entries ++ sources.map (updatedEntry entryId replacement) },
        found || sources.any fun source => source.id = entryId) := by
  induction sources generalizing updated found with
  | nil => simp [pure, Except.pure]
  | cons source rest ih =>
    obtain ⟨here, later⟩ := List.forall_mem_cons.mp ok
    rw [List.length_cons] at room
    have step (entry : Entry) (good : EntryOk entry) :
        payloadAppendEntry updated entry = .ok { updated with entries := updated.entries ++ [entry] } :=
          appendEntry_eq good (by omega)
    have more (entry : Entry) : ({ updated with entries := updated.entries ++ [entry] } : Payload).entries.length +
      rest.length ≤ maxEntries := by
      rw [List.length_append, List.length_singleton]
      omega
    rw [List.foldlM_cons]
    by_cases same : source.id = entryId
    · have replaced := replaceEntry_done here valid
      have one : updateStep entryId replacement (updated, found) source =
          .ok ({ updated with entries := updated.entries ++ [superseded replacement source] }, true) := by
        simp only [updateStep, if_pos same, replaced]
        change (payloadAppendEntry updated (superseded replacement source) >>= fun result => pure (result, true)) = _
        rw [step _ (replaceEntry_ok raw here replaced)]
        rfl
      rw [one]
      change rest.foldlM _ _ = _
      rw [ih later (more _) _]
      simp [updatedEntry, same]
    · have one : updateStep entryId replacement (updated, found) source =
        .ok ({ updated with entries := updated.entries ++ [source] }, found) := by
        simp only [updateStep, if_neg same, step source here]
        rfl
      rw [one]
      change rest.foldlM _ _ = _
      rw [ih later (more _) _]
      simp [updatedEntry, same]

theorem remove_loop_done {sources : List Entry} (ok : ∀ source ∈ sources, EntryOk source) {updated : Payload}
    (room : updated.entries.length + sources.length ≤ maxEntries) (found : Bool) :
    sources.foldlM (removeStep entryId) (updated, found) =
      .ok ({ updated with entries := updated.entries ++ sources.filter fun entry => entry.id ≠ entryId },
        found || sources.any fun source => source.id = entryId) := by
  induction sources generalizing updated found with
  | nil => simp [pure, Except.pure]
  | cons source rest ih =>
    obtain ⟨here, later⟩ := List.forall_mem_cons.mp ok
    rw [List.length_cons] at room
    rw [List.foldlM_cons]
    by_cases same : source.id = entryId
    · have one : removeStep entryId (updated, found) source = .ok (updated, true) := if_pos same
      rw [one]
      change rest.foldlM _ _ = _
      rw [ih later (by omega) _]
      simp [same]
    · have one : removeStep entryId (updated, found) source =
        .ok ({ updated with entries := updated.entries ++ [source] }, found) := by
        simp only [removeStep, if_neg same, appendEntry_eq here (show updated.entries.length < maxEntries by omega)]
        rfl
      rw [one]
      change rest.foldlM _ _ = _
      rw [ih later (by rw [List.length_append, List.length_singleton]; omega) _]
      simp [same]

/-- An update that has replaced an entry has found its replacement valid. -/
theorem update_loop_valid {sources : List Entry} {state last : Payload × Bool}
    (done : sources.foldlM (updateStep entryId replacement) state = .ok last) (present : entryId ∈ sources.map (·.id)) :
    validateEntryModel replacement = .ok () := by
  induction sources generalizing state with
  | nil => cases present
  | cons source rest ih =>
    rw [List.foldlM_cons] at done
    obtain ⟨next, one, others⟩ := bind_eq_ok.mp done
    by_cases same : source.id = entryId
    · simp only [updateStep, if_pos same] at one
      obtain ⟨_, replaced, -⟩ := bind_eq_ok.mp one
      obtain ⟨_, cloned, -⟩ := bind_eq_ok.mp replaced
      obtain ⟨_, valid, -⟩ := bind_eq_ok.mp cloned
      exact valid
    · exact ih others ((List.mem_cons.mp present).resolve_left fun equal => same equal.symm)

end

/-- The payloads that a change may put in the place of another one. Updates and removals begin with
an empty payload. -/
inductive Rebuilds (before : Payload) : Store.Edit → Payload → Prop
  | removed {entryId : CStr} (present : entryId ∈ idsOf before) (named : entryId ≠ .empty) :
      Rebuilds before (.entryRemove entryId)
      { updatedInit before with entries := before.entries.filter fun entry => entry.id ≠ entryId }
  | updated {entryId : CStr} {replacement : Entry} (present : entryId ∈ idsOf before) (named : entryId ≠ .empty)
      (stillNamed : replacement.id ≠ .empty) (valid : validateEntryModel replacement = .ok ()) :
      Rebuilds before (.entryUpdate entryId replacement)
        { updatedInit before with entries := before.entries.map (updatedEntry entryId replacement) }
  | known {entry : Entry} {after : Payload} (updates : Rebuilds before (.entryUpdate entry.id entry) after) :
      Rebuilds before (.entryAdd entry false) after
  | added {entry : Entry} {failIfExists : Bool} (new : entry.id ∉ idsOf before) (named : entry.id ≠ .empty)
      (room : before.entries.length < maxEntries) (valid : validateEntryModel entry = .ok ()) :
      Rebuilds before (.entryAdd entry failIfExists) { before with entries := before.entries ++ [ensureEntryUrlAlias entry] }

/-- A change of entries whose raw parts are as the decoder captures them. -/
def Store.Edit.RawOk : Store.Edit → Prop
  | .setPayload _ => False
  | .entryAdd entry _ => EntryRawOk entry
  | .entryUpdate _ replacement => EntryRawOk replacement
  | .entryRemove _ => True

section
variable {handle last : VaultHandle} {before after : Payload}

theorem any_id {entryId : CStr} : (before.entries.any fun entry => entry.id = entryId) = true ↔ entryId ∈ idsOf before := by
  simp [idsOf]

theorem Rebuilds.ok {edit : Store.Edit} (rebuilds : Rebuilds before edit after) (raw : edit.RawOk)
    (ok : PayloadOk before) : PayloadOk after := by
  induction rebuilds with
  | removed present named =>
    refine (remove_loop ok.entries (updatedInit_ok ok) (remove_loop_done ok.entries ?_ false)).1
    exact (Nat.zero_add _).trans_le ok.fewEntries
  | updated present named stillNamed valid =>
    refine (update_loop raw ok.entries (updatedInit_ok ok) (update_loop_done raw valid ok.entries ?_ false)).1
    exact (Nat.zero_add _).trans_le ok.fewEntries
  | known _ ih => exact ih raw
  | added new named room valid =>
    have copied := entryClone_raw raw (entryClone_done valid)
    exact appendEntry_ok ok copied (appendEntry_eq copied room)

variable (read : vaultGetPayloadModel handle = (.ok before, handle))
include read

theorem remove_iff {entryId : CStr} : vaultEntryRemove entryId handle = (.ok (), last) ↔
    ∃ after, Rebuilds before (.entryRemove entryId) after ∧ vaultSetPayloadModel after handle = (.ok (), last) := by
  have ok := payloadOk_of_decode (getPayloadModel_ok read).2.2
  have room : (updatedInit before).entries.length + before.entries.length ≤ maxEntries :=
    (Nat.zero_add _).trans_le ok.fewEntries
  have looped := @remove_loop_done entryId before.entries ok.entries (updatedInit before) room false
  unfold vaultEntryRemove
  by_cases named : entryId = .empty
  · refine iff_of_false ?_ fun made => ?_
    · simp [validEntryId, named, Proc.fail_apply]
    · obtain ⟨_, rebuilds, _⟩ := made
      cases rebuilds with
      | removed _ other => exact other named
  · rw [if_neg (by simp [validEntryId, named]), Proc.bind_of_ok read, looped]
    simp only [liftVault, pure_bind, Bool.false_or]
    by_cases present : entryId ∈ idsOf before
    · rw [any_id.mpr present, if_neg (by simp)]
      refine ⟨fun done => ⟨_, .removed present named, done⟩, ?_⟩
      rintro ⟨_, ⟨⟩, done⟩
      exact done
    · rw [Bool.eq_false_iff.mpr (mt any_id.mp present), if_pos (by rfl)]
      refine iff_of_false (by simp) fun made => ?_
      obtain ⟨_, rebuilds, _⟩ := made
      cases rebuilds with
      | removed there _ => exact present there

theorem update_iff {entryId : CStr} {replacement : Entry} (raw : EntryRawOk replacement) :
    vaultEntryUpdate entryId replacement handle = (.ok (), last) ↔
    ∃ after, Rebuilds before (.entryUpdate entryId replacement) after ∧
    vaultSetPayloadModel after handle = (.ok (), last) := by
  have ok := payloadOk_of_decode (getPayloadModel_ok read).2.2
  constructor
  · intro done
    have present := update_present read done
    obtain ⟨updated, looped, installed⟩ := update_looped read done
    have valid := update_loop_valid looped present
    obtain ⟨-, rfl⟩ := update_loop raw ok.entries (updatedInit_ok ok) looped
    have named : ¬ (!validEntryId entryId || !validEntryId replacement.id) = true := by
      intro unnamed
      unfold vaultEntryUpdate at done
      rw [if_pos unnamed] at done
      cases done
    simp only [validEntryId, Bool.or_eq_true, Bool.not_eq_true', decide_eq_false_iff_not, not_not, not_or] at named
    exact ⟨_, .updated present named.1 named.2 valid, installed⟩
  · rintro ⟨_, rebuilds, installed⟩
    cases rebuilds with
    | updated present named stillNamed valid =>
      have room : (updatedInit before).entries.length + before.entries.length ≤ maxEntries :=
        (Nat.zero_add _).trans_le ok.fewEntries
      have looped := @update_loop_done entryId replacement raw valid before.entries ok.entries (updatedInit before) room false
      unfold vaultEntryUpdate
      rw [if_neg (by simp [validEntryId, named, stillNamed]), Proc.bind_of_ok read, looped]
      simp only [liftVault, pure_bind, Bool.false_or]
      rw [any_id.mpr present]
      exact installed

theorem add_iff {entry : Entry} {failIfExists : Bool} (raw : EntryRawOk entry) :
    vaultEntryAdd entry failIfExists handle = (.ok (), last) ↔
    ∃ after, Rebuilds before (.entryAdd entry failIfExists) after ∧ vaultSetPayloadModel after handle = (.ok (), last) := by
  unfold vaultEntryAdd
  by_cases named : entry.id = .empty
  · refine iff_of_false (by simp [validEntryId, named, Proc.fail_apply]) fun made => ?_
    obtain ⟨_, rebuilds, _⟩ := made
    cases rebuilds with
    | known updates =>
      cases updates with
      | updated _ other _ _ => exact other named
    | added _ other _ _ => exact other named
  rw [if_neg (by simp [validEntryId, named]), Proc.bind_of_ok read]
  by_cases present : entry.id ∈ idsOf before
  · simp only [any_id.mpr present, Bool.true_and]
    cases failIfExists with
    | true =>
      refine iff_of_false (by simp) fun made => ?_
      obtain ⟨_, rebuilds, _⟩ := made
      cases rebuilds with
      | added new _ _ _ => exact new present
    | false =>
      refine (update_iff read raw).trans ⟨fun made => made.imp fun _ made => ⟨.known made.1, made.2⟩, fun made => ?_⟩
      obtain ⟨after, rebuilds, installed⟩ := made
      cases rebuilds with
      | known updates => exact ⟨after, updates, installed⟩
      | added new _ _ _ => exact absurd present new
  · simp only [Bool.eq_false_iff.mpr (mt any_id.mp present), Bool.false_and, Bool.false_eq_true, if_false]
    constructor
    · intro done
      cases appended : payloadAppendEntry before entry with
      | error problem =>
        rw [appended] at done
        cases done
      | ok result =>
        rw [appended] at done
        unfold payloadAppendEntry at appended
        split at appended
        · cases appended
        next room =>
          obtain ⟨copy, cloned, same⟩ := bind_eq_ok.mp appended
          obtain ⟨_, valid, -⟩ := bind_eq_ok.mp cloned
          cases same
          rw [entryClone_eq cloned] at done
          exact ⟨_, .added present named (Nat.lt_of_not_le room) valid, done⟩
    · rintro ⟨_, rebuilds, installed⟩
      cases rebuilds with
      | known updates =>
        cases updates with
        | updated there _ _ _ => exact absurd there present
      | added _ _ room valid =>
        have appended : payloadAppendEntry before entry =
          .ok { before with entries := before.entries ++ [ensureEntryUrlAlias entry] } := by
          unfold payloadAppendEntry
          rw [if_neg (Nat.not_le.mpr room), entryClone_done valid]
          rfl
        rw [appended]
        exact installed

end

/-- A change succeeds where the payload that it is to make can be made, and fits. -/
theorem apply_iff {edit : Store.Edit} {handle last : VaultHandle} {before : Payload}
    (read : vaultGetPayloadModel handle = (.ok before, handle))
    (raw : edit.RawOk) : edit.apply handle = (.ok (), last) ↔
      ∃ after, Rebuilds before edit after ∧ Fits after ∧ last = { handle with payload := written after } := by
  obtain ⟨-, unlocked, decoded⟩ := getPayloadModel_ok read
  have sets : edit.apply handle = (.ok (), last) ↔ ∃ after, Rebuilds before edit after ∧
    vaultSetPayloadModel after handle = (.ok (), last) := by
    cases edit with
    | setPayload _ => exact raw.elim
    | entryAdd entry failIfExists => exact add_iff read raw
    | entryUpdate entryId replacement => exact update_iff read raw
    | entryRemove entryId => exact remove_iff read
  refine sets.trans (exists_congr fun after => and_congr_right fun rebuilds => ?_)
  exact setPayloadModel_iff (rebuilds.ok raw (payloadOk_of_decode decoded)) unlocked

end Hiya.Pm

namespace Hiya.Daemon.Vaults
open Library Pm Pm.Store
open Pm.Format (Primitives ensure_eq_ok orFail_eq_ok ensure_ok Supplied Written vaultSerialize_iff)

variable {otpImportFromQr : OtpImport} {lib : Primitives} {env : Env} {slot : VaultSlot} {handle : Handle}

/-- What later reads of the vault are about. -/
def VaultSlot.payload (slot : VaultSlot) : Option Bytes := slot.handle.map fun handle => handle.contents.payload

/-- A call that reports an error has changed neither the payload nor the file. -/
def FailsCleanly (slot : VaultSlot) (result : Except Refusal Reply × VaultSlot) : Prop :=
  ∀ refusal, result.1 = .error refusal → result.2.payload = slot.payload ∧ result.2.file = slot.file

/-- Everything a save of the handle asks for, and the file it makes of it. -/
structure Saving (lib : Primitives) (env : Store.Env) (handle : Handle) where
  key : Buf Format.masterKeySize
  held : handle.masterKey = some key
  counts : handle.format.fileSequence ≠ 0xFFFFFFFFFFFFFFFF
  supplied : Supplied env.format (saveRequest handle key)
  file : Written lib env.format (saveRequest handle key)
  writable : env.writable = true

theorem vaultSave_iff {env : Store.Env} (unlocked : handle.contents.locked = false) (filled : handle.contents.payload ≠ [])
    {saved : Handle} {blob : Bytes} : vaultSave lib env handle = .ok (saved, blob) ↔
      saved = { handle with format := saveFormat handle } ∧ ∃ saving : Saving lib env handle, blob = saving.file.blob := by
  constructor
  · intro made
    unfold vaultSave at made
    obtain ⟨_, -, made⟩ := bind_eq_ok.mp made
    obtain ⟨key, held, made⟩ := bind_eq_ok.mp made
    obtain ⟨_, -, made⟩ := bind_eq_ok.mp made
    obtain ⟨_, counts, made⟩ := bind_eq_ok.mp made
    obtain ⟨written, serialized, made⟩ := bind_eq_ok.mp made
    obtain ⟨_, writable, made⟩ := bind_eq_ok.mp made
    obtain ⟨-, supplied, file, shape⟩ := vaultSerialize_iff.mp serialized
    obtain ⟨rfl, rfl⟩ := Prod.mk.inj (Except.ok.inj made)
    exact ⟨rfl, ⟨key, orFail_eq_ok.mp held, ensure_eq_ok.mp counts, supplied, file, ensure_eq_ok.mp writable⟩, shape⟩
  · intro ⟨same, saving, shape⟩
    rw [same, shape]
    unfold vaultSave
    refine bind_eq_ok.mpr ⟨_, ensure_ok unlocked, bind_eq_ok.mpr ⟨_, orFail_eq_ok.mpr saving.held, ?_⟩⟩
    refine bind_eq_ok.mpr ⟨_, ensure_ok filled, bind_eq_ok.mpr ⟨_, ensure_ok saving.counts, ?_⟩⟩
    refine bind_eq_ok.mpr ⟨_, vaultSerialize_iff.mpr ⟨filled, saving.supplied, saving.file, rfl⟩, ?_⟩
    exact bind_eq_ok.mpr ⟨_, ensure_ok saving.writable, rfl⟩

section
variable {entryId : CStr} {contents : VaultHandle} {entry : Entry}

/-- An entry that is read is the first of its id in the payload. -/
theorem readEntry_ok (read : readEntry entryId contents = .ok entry) : entryId ≠ .empty ∧ ∃ payload,
    vaultGetPayloadModel contents = (.ok payload, contents) ∧ payload.entries.find? (·.id = entryId) = some entry ∧
    EntryOk entry := by
  unfold readEntry vaultEntryGet at read
  split at read
  · cases read
  next valid =>
    refine ⟨by simpa [validEntryId] using valid, ?_⟩
    rcases model : vaultGetPayloadModel contents with ⟨problem | payload, last⟩
    · rw [Proc.bind_apply, model] at read
      cases read
    · obtain ⟨rfl, -, decoded⟩ := getPayloadModel_ok model
      rw [Proc.bind_apply, model] at read
      dsimp only at read
      have ok := payloadOk_of_decode decoded
      cases found : payload.entries.find? (·.id = entryId) with
      | none =>
        rw [found] at read
        cases read
      | some stored =>
        have good := ok.entries stored (List.mem_of_find?_eq_some found)
        rw [found] at read
        dsimp only at read
        rw [entryClone_ok good] at read
        cases read
        exact ⟨payload, rfl, found, good⟩

theorem EntryOk.raw (ok : EntryOk entry) : EntryRawOk entry where
  unknown := ok.unknown
  customFields := ok.customFields
  attachmentRefs := ok.attachmentRefs
  history revision member := (ok.history revision member).unknown

theorem blames_ok {α : Type} {error : PmError → MethodError} {given : Except PmError α} {value : α}
    (passed : blames error given = .ok value) :
    given = .ok value := by
  cases given with
  | error problem => cases passed
  | ok result =>
    cases passed
    rfl

theorem raw_of_read (read : readEntry entryId contents = .ok entry) : EntryRawOk entry := by
  obtain ⟨-, -, -, -, ok⟩ := readEntry_ok read
  exact EntryOk.raw ok

end

theorem entryInit_raw : EntryRawOk entryInit := ⟨.nil 20, nofun, nofun, nofun⟩

theorem entrySetCustomText_raw {entry : Entry} (raw : EntryRawOk entry) (name : CStr) (type : CustomFieldType)
    (value : CStr) :
    EntryRawOk (entrySetCustomText name type value entry) := by
  refine { raw with customFields := fun field member => ?_ }
  unfold entrySetCustomText at member
  dsimp only at member
  split at member
  next place found =>
    obtain ⟨index, inside, rfl⟩ := List.mem_iff_getElem.mp member
    rw [List.getElem_modify]
    have old := raw.customFields _ (List.getElem_mem (by simpa using inside : index < entry.customFields.length))
    split
    · exact ⟨old.unknown⟩
    · exact old
  next =>
    rcases List.mem_append.mp member with old | new
    · exact raw.customFields field old
    · cases List.mem_singleton.mp new
      exact ⟨.nil 5⟩

theorem passkeyFields_raw {entry : Entry} (raw : EntryRawOk entry) (passkey : Passkey) (privateKey publicKey : CStr) :
    EntryRawOk (passkeyFields passkey privateKey publicKey entry) := by
  unfold passkeyFields
  iterate 5 apply entrySetCustomText_raw
  exact raw

theorem passkeyEntry_raw {passkey : Passkey} {contents : VaultHandle} {entry : Entry} {existing : Bool}
    (made : passkeyEntry env passkey contents = .ok (entry, existing)) : EntryRawOk entry := by
  unfold passkeyEntry at made
  split at made
  next old found =>
    cases made
    unfold findPasskeyEntryByRp at found
    obtain ⟨payload, -, found⟩ := bind_eq_ok.mp found
    obtain ⟨listed, -, kept⟩ := List.exists_of_findSome?_eq_some (orFail_eq_ok.mp found)
    have read := (Option.filter_eq_some_iff.mp (Option.filter_eq_some_iff.mp kept).1).1
    cases answer : readEntry listed.id contents with
    | error problem =>
      rw [answer] at read
      cases read
    | ok stored =>
      rw [answer] at read
      cases read
      exact { raw_of_read answer with }
  · obtain ⟨id, -, made⟩ := bind_eq_ok.mp made
    cases made
    exact { entryInit_raw with }
  · cases made

/-- What a call is about to change, it changes with entries it has read or begun. -/
theorem plan_raw (imports : ∀ text time entry, otpImportFromQr text time = .ok entry → EntryRawOk entry) {call : Call}
    {contents : VaultHandle}
    {plan : Plan} (planned : call.plan otpImportFromQr env contents = .ok plan) : plan.edit.RawOk := by
  have updates {entryId : CStr} {changes : Changes} (planned : updatePlan env entryId changes contents = .ok plan) :
    plan.edit.RawOk := by
    obtain ⟨entry, read, planned⟩ := bind_eq_ok.mp planned
    cases planned
    exact { raw_of_read (blames_ok read) with }
  cases call with
  | saveCredential path first second third fourth =>
    obtain ⟨id, -, planned⟩ := bind_eq_ok.mp planned
    obtain ⟨_, -, planned⟩ := bind_eq_ok.mp planned
    cases planned
    exact { entryInit_raw with }
  | deleteEntry entryId =>
    cases planned
    trivial
  | updateEntry entryId url username password title => exact updates planned
  | updateCredential entryId fields => exact updates planned
  | restoreEntryRevision entryId index =>
    obtain ⟨entry, read, planned⟩ := bind_eq_ok.mp planned
    obtain ⟨revision, -, planned⟩ := bind_eq_ok.mp planned
    obtain ⟨restored, built, planned⟩ := bind_eq_ok.mp planned
    obtain ⟨_, -, built⟩ := bind_eq_ok.mp (blames_ok built)
    cases built
    cases planned
    exact { raw_of_read (blames_ok read) with }
  | savePasskey passkey =>
    obtain ⟨privateKey, -, planned⟩ := bind_eq_ok.mp planned
    obtain ⟨publicKey, -, planned⟩ := bind_eq_ok.mp planned
    obtain ⟨made, entered, planned⟩ := bind_eq_ok.mp planned
    obtain ⟨_, -, planned⟩ := bind_eq_ok.mp planned
    obtain ⟨_, -, planned⟩ := bind_eq_ok.mp planned
    cases planned
    have raw := passkeyFields_raw (passkeyEntry_raw entered) passkey privateKey publicKey
    dsimp only
    split
    · exact raw
    · exact raw
  | importTotp text =>
    obtain ⟨entry, read, planned⟩ := bind_eq_ok.mp planned
    cases planned
    exact imports _ _ _ (blames_ok read)

/-- The call comes to change the payload: its arguments pass, the vault can be read, and there is a
payload to be put in the place of the one that is there. -/
structure Call.Alters (otpImportFromQr : OtpImport) (env : Env) (handle : Handle) (call : Call) (plan : Plan)
    (before after : Payload) : Prop where
  checked : call.checked = .ok ()
  planned : call.plan otpImportFromQr env handle.contents = .ok plan
  read : vaultGetPayloadModel handle.contents = (.ok before, handle.contents)
  rebuilds : Rebuilds before plan.edit after
  fits : Fits after

def holding (handle : Handle) (payload : Payload) : Handle :=
    { handle with contents := { handle.contents with payload := written payload } }

/-- A payload that differs is not saved, or it is saved but nothing is left to answer with. -/
def Plan.Strands (lib : Primitives) (env : Env) (slot : VaultSlot) (handle : Handle) (plan : Plan)
    (before after : Payload) : Prop :=
  Differs handle.contents before after ∧ IsEmpty (Saving lib env.store (holding handle after)) ∨
    ∃ (error : MethodError) (saving : Saving lib env.store (holding handle after)), plan.reply = .error error ∧
      (Differs handle.contents before after ∨ slot.file ≠ some saving.file.blob)

def Call.Strands (otpImportFromQr : OtpImport) (lib : Primitives) (env : Env) (slot : VaultSlot) (handle : Handle)
    (call : Call) : Prop :=
  ∃ plan before after, call.Alters otpImportFromQr env handle plan before after ∧
    plan.Strands lib env slot handle before after

theorem vaultSave_contents {saved : Handle} {blob : Bytes} {env : Store.Env}
    (made : vaultSave lib env handle = .ok (saved, blob)) :
    saved.contents = handle.contents := by
  rw [(vaultSave_stored made).2]

theorem failsCleanly_same (refusal : Refusal) : FailsCleanly slot (.error refusal, slot) := fun _ _ => ⟨rfl, rfl⟩

theorem failsCleanly_ok (reply : Reply) (after : VaultSlot) : FailsCleanly slot (.ok reply, after) :=
    fun _ wrong => by cases wrong

/-- A failure is clean when what it leaves is what was there. -/
theorem failsCleanly_iff {refusal : Refusal} {after : VaultSlot} :
    FailsCleanly slot (.error refusal, after) ↔ after.payload = slot.payload ∧ after.file = slot.file :=
  ⟨fun clean => clean refusal rfl, fun same _ _ => same⟩

section
variable {plan : Plan} {before after : Payload}

/-- A change that is made is saved and answered, or leaves what it has made. -/
theorem applyPlan_changed (there : slot.handle = some handle) (texts : Texts)
    (read : vaultGetPayloadModel handle.contents = (.ok before, handle.contents))
    (ok : PayloadOk after) {contents : VaultHandle} (applied : plan.edit.apply handle.contents = (.ok (), contents))
    (made : ({ handle with contents } : Handle) = holding handle after) :
    FailsCleanly slot (applyPlan lib env texts plan handle slot) ↔ ¬ plan.Strands lib env slot handle before after := by
  have seen : slot.payload = some handle.contents.payload := by
    unfold VaultSlot.payload
    rw [there]
    rfl
  have differs : ¬ some (written after) = slot.payload ↔ Differs handle.contents before after := by
    rw [seen, Option.some.injEq]
    exact written_ne_iff read ok
  have saves (saved : Handle) (blob : Bytes) :=
    @vaultSave_iff lib (holding handle after) env.store (getPayloadModel_ok read).2.1
    (written_ne_nil ok) saved blob
  unfold applyPlan
  rw [applied]
  dsimp only
  rw [made]
  rcases saving : vaultSave lib env.store (holding handle after) with problem | ⟨saved, blob⟩
  · have unsaved (other : Saving lib env.store (holding handle after)) : False := by
      cases saving.symm.trans ((saves _ _).mpr ⟨rfl, other, rfl⟩)
    refine (failsCleanly_iff.trans ⟨fun ⟨same, _⟩ => ?_, fun unharmed => ⟨?_, rfl⟩⟩)
    · rintro (⟨different, -⟩ | ⟨_, other, -⟩)
      · exact differs.mpr different same
      · exact unsaved other
    · by_contra different
      exact unharmed (.inl ⟨differs.mp different, ⟨unsaved⟩⟩)
  · obtain ⟨same, file, shape⟩ := (saves _ _).mp saving
    cases answer : plan.reply with
    | ok reply =>
      refine iff_of_true (failsCleanly_ok reply _) ?_
      rintro (⟨-, none⟩ | ⟨_, _, wrong, -⟩)
      · exact none.false file
      · cases answer.symm.trans wrong
    | error error =>
      have payload : ({ slot with file := some blob, handle := some saved } : VaultSlot).payload =
        some (written after) := by rw [same]; rfl
      refine failsCleanly_iff.trans ⟨fun ⟨kept, stored⟩ => ?_, fun unharmed => ?_⟩
      · rintro (⟨-, none⟩ | ⟨_, other, -, different | harmed⟩)
        · exact none.false file
        · exact differs.mpr different (payload ▸ kept)
        · have again := saving.symm.trans ((saves _ _).mpr ⟨rfl, other, rfl⟩)
          rw [← (Prod.mk.inj (Except.ok.inj again)).2] at harmed
          exact harmed stored.symm
      · rw [payload]
        by_contra different
        refine unharmed (.inr ⟨error, file, answer, ?_⟩)
        by_contra neither
        obtain ⟨alike, kept⟩ := not_or.mp neither
        exact different ⟨not_not.mp fun other => alike (differs.mp other), (not_not.mp kept).symm ▸ congrArg some shape⟩

theorem apply_reads {edit : Edit} {contents last : VaultHandle} (raw : edit.RawOk)
    (applied : edit.apply contents = (.ok (), last)) :
    ∃ before, vaultGetPayloadModel contents = (.ok before, contents) := by
  rcases model : vaultGetPayloadModel contents with ⟨problem | before, reached⟩
  · have stops {β : Type} (next : Payload → Vault β) : (vaultGetPayloadModel >>= next) contents =
      (.error problem, reached) := by
      rw [Proc.bind_apply, model]
    cases edit with
    | setPayload _ => exact raw.elim
    | entryAdd entry failIfExists =>
      change vaultEntryAdd _ _ _ = _ at applied
      unfold vaultEntryAdd at applied
      split at applied
      · cases applied
      · cases (stops _).symm.trans applied
    | entryUpdate entryId replacement =>
      change vaultEntryUpdate _ _ _ = _ at applied
      unfold vaultEntryUpdate at applied
      split at applied
      · cases applied
      · cases (stops _).symm.trans applied
    | entryRemove entryId =>
      change vaultEntryRemove _ _ = _ at applied
      unfold vaultEntryRemove at applied
      split at applied
      · cases applied
      · cases (stops _).symm.trans applied
  · obtain ⟨rfl, -⟩ := getPayloadModel_ok model
    exact ⟨before, rfl⟩

end

/-- On an unlocked vault a call fails cleanly unless it leaves a change stranded. -/
theorem failed_change_is_undone_iff (otpImportFromQr : OtpImport)
    (imports : ∀ text time entry, otpImportFromQr text time = .ok entry → EntryRawOk entry) (lib : Primitives)
    (env : Env) (call : Call)
    (slot : VaultSlot) (handle : Handle) (there : slot.handle = some handle) (unlocked : handle.contents.locked = false) :
    FailsCleanly slot (call.run otpImportFromQr lib env slot) ↔ ¬ call.Strands otpImportFromQr lib env slot handle := by
  have same : ({ slot with handle := some handle } : VaultSlot) = slot := by rw [← there]
  have found : ensureUserVaultHandle env slot = .ok handle := by
    unfold ensureUserVaultHandle
    rw [there]
  unfold Call.run changeVault
  cases passed : call.checked with
  | error error =>
    exact iff_of_true (failsCleanly_same _) fun ⟨_, _, _, changes, _⟩ => by cases passed.symm.trans changes.checked
  | ok =>
    rw [found]
    dsimp only
    rw [same, unlocked, if_neg Bool.false_ne_true]
    cases planned : call.plan otpImportFromQr env handle.contents with
    | error error =>
      exact iff_of_true (failsCleanly_same _) fun ⟨_, _, _, changes, _⟩ => by cases planned.symm.trans changes.planned
    | ok plan =>
      have raw := plan_raw imports planned
      dsimp only
      rcases applied : plan.edit.apply handle.contents with ⟨problem | _, contents⟩
      · refine iff_of_true ?_ fun ⟨other, before, after, changes, _⟩ => ?_
        · have kept : contents = handle.contents := by
            have kept := plan.edit.edits.atomic handle.contents problem (by rw [applied])
            rwa [applied] at kept
          unfold applyPlan
          rw [applied, kept]
          exact failsCleanly_iff.mpr ⟨congrArg VaultSlot.payload same, rfl⟩
        · cases planned.symm.trans changes.planned
          have done := (apply_iff changes.read raw).mpr ⟨after, changes.rebuilds, changes.fits, rfl⟩
          cases applied.symm.trans done
      · obtain ⟨before, read⟩ := apply_reads raw applied
        obtain ⟨after, rebuilds, fits, rfl⟩ := (apply_iff read raw).mp applied
        have ok := rebuilds.ok raw (payloadOk_of_decode (getPayloadModel_ok read).2.2)
        refine (applyPlan_changed there call.texts read ok applied rfl).trans (not_congr ⟨fun strands => ?_, ?_⟩)
        · exact ⟨plan, before, after, ⟨passed, planned, read, rebuilds, fits⟩, strands⟩
        · rintro ⟨other, old, new, changes, strands⟩
          cases planned.symm.trans changes.planned
          cases read.symm.trans changes.read
          have done := (apply_iff read raw).mpr ⟨new, changes.rebuilds, changes.fits, rfl⟩
          have equal : written after = written new := congrArg (fun result => result.2.payload) (applied.symm.trans done)
          have again := changes.rebuilds.ok raw (payloadOk_of_decode (getPayloadModel_ok read).2.2)
          have models : after = new := by
            have decoded := decode_payloadTokens ok
            rw [show bytesOf (payloadTokens after) = bytesOf (payloadTokens new) from equal,
              decode_payloadTokens again] at decoded
            exact (Except.ok.inj decoded).symm
          subst models
          exact strands

/-- An unlocked vault with one entry. -/
def openSlot : VaultSlot where
  file := firstFile
  handle := some {
    format := { versionMajor := 1, versionMinor := 0, flags := 4, fileSequence := 7, argon2 := Format.defaultArgon2, compositeMode := 9 }
    mode := ⟨false, false, true, false⟩
    salt := .zero _
    masterKey := some (.zero _)
    contents := singleVault }
  unlockedAt := 0

/-- Surroundings in which files may be writable. -/
def onDisk (writable : Bool) : Env where
  store := { steadily with writable }
  slotFree := true
  nowMs := 5000
  now := 5
  uuid := none
  entryMemory := true
  copies _ := true
  replyMemory := true

def noImport : OtpImport := fun _ _ => .error .format

/-- Nothing can be saved, but there is no entry `b` to be deleted. -/
theorem failed_change_is_undone_iff_unknown :
    ((Call.deleteEntry idB).run noImport Format.plainly (onDisk false) openSlot).1 =
    .error (.refused (failed "Delete failed: %s" .notFound)) ∧
      FailsCleanly openSlot ((Call.deleteEntry idB).run noImport Format.plainly (onDisk false) openSlot) := by
  refine ⟨by decide +kernel, (failed_change_is_undone_iff noImport nofun Format.plainly (onDisk false)
    (.deleteEntry idB) openSlot _ rfl rfl).mpr ?_⟩
  intro ⟨plan, before, after, changes, _⟩
  cases changes.planned
  have model : vaultGetPayloadModel singleVault = (.ok (modelOf singleVault), singleVault) := by decide +kernel
  cases model.symm.trans changes.read
  have absent : idB ∉ idsOf (modelOf singleVault) := by decide +kernel
  cases changes.rebuilds with
  | removed present _ => exact absent present

/-- The caller is told that the entry is still there, but it is gone. -/
theorem deletion_is_stranded :
    (((Call.deleteEntry idA).run noImport Format.plainly (onDisk false) openSlot).1 =
    .error (.refused (failed "Persist failed: %s" .io)) ∧
      ((Call.deleteEntry idA).run noImport Format.plainly (onDisk false) openSlot).2.payload ≠ openSlot.payload) ∧
    ¬ FailsCleanly openSlot ((Call.deleteEntry idA).run noImport Format.plainly (onDisk false) openSlot) := by
  have told : ((Call.deleteEntry idA).run noImport Format.plainly (onDisk false) openSlot).1 =
    .error (.refused (failed "Persist failed: %s" .io)) ∧
      ((Call.deleteEntry idA).run noImport Format.plainly (onDisk false) openSlot).2.payload ≠ openSlot.payload :=
        by decide +kernel
  exact ⟨told, fun clean => told.2 (clean _ told.1).1⟩

end Hiya.Daemon.Vaults
