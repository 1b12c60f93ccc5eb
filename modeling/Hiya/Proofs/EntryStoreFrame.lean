import Hiya.Pm.EntryStore
import Hiya.Proofs.PayloadRoundTrip

/-! What updating and removing entries leaves alone. Both operations rebuild the
payload from an empty one, so they keep the rest of a payload only when there is
nothing else in it. -/

namespace Hiya.Pm
open Library Cbor

/-- The raw parts of an entry are values the decoder captured. Entries only come from
the decoder or start empty, so every replacement a caller passes satisfies this. -/
structure EntryRawOk (entry : Entry) : Prop where
  unknown : UnknownFieldsOk 20 entry.unknownFields
  customFields : ∀ field ∈ entry.customFields, CustomFieldOk field
  attachmentRefs : ∀ ref ∈ entry.attachmentRefs, AttachmentRefOk ref
  history : ∀ revision ∈ entry.history, UnknownFieldsOk 14 revision.unknownFields

theorem forM_eq_ok {α : Type} {check : α → Except PmError Unit} {items : List α} (passed : items.forM check = .ok ()) :
    ∀ item ∈ items, check item = .ok () := by
  induction items with
  | nil => simp
  | cons first rest ih =>
    obtain ⟨_, one, others⟩ := bind_eq_ok.mp passed
    intro item member
    rcases List.mem_cons.mp member with rfl | later
    · exact one
    · exact ih others item later

theorem tags_of_validate {revision : HistoryRevision} (passed : validateHistoryRevisionModel revision = .ok ()) :
    revision.tags.length ≤ maxTagsPerEntry := by
  unfold validateHistoryRevisionModel at passed
  split at passed
  · cases passed
  · omega

theorem entryPartsOk_of_validate {entry : Entry} (raw : EntryRawOk entry) (passed : validateEntryModel entry = .ok ()) :
    EntryPartsOk entry := by
  unfold validateEntryModel at passed
  split at passed
  · cases passed
  next bounds =>
    exact {
      unknown := raw.unknown
      tags := by omega
      urls := by omega
      fewCustomFields := by omega
      customFields := raw.customFields
      fewAttachmentRefs := by omega
      attachmentRefs := raw.attachmentRefs
      fewRevisions := by omega
      history := fun revision member =>
        ⟨raw.history revision member, tags_of_validate (forM_eq_ok passed revision member)⟩ }

theorem entryClone_raw {entry copy : Entry} (raw : EntryRawOk entry) (cloned : entryClone entry = .ok copy) :
    EntryOk copy := by
  obtain ⟨_, passed, rest⟩ := bind_eq_ok.mp cloned
  obtain ⟨_, _, same⟩ := bind_eq_ok.mp rest
  have parts := entryPartsOk_of_validate raw passed
  cases same
  exact {
    toEntryPartsOk := { parts with urls := ensureUrlAlias_length _ parts.urls }
    primary := ensureUrlAlias_primary _ _ }

theorem entryClone_id {entry copy : Entry} (cloned : entryClone entry = .ok copy) : copy.id = entry.id := by
  obtain ⟨_, _, rest⟩ := bind_eq_ok.mp cloned
  obtain ⟨_, _, same⟩ := bind_eq_ok.mp rest
  cases same
  rfl

/-- The keys an entry does not know are unknown to a revision too. -/
theorem revision_of_entry {source : Entry} {ts : UInt64} {actor origin : CStr} {revision : HistoryRevision}
    (ok : EntryOk source) (made : entryRevisionFromEntry source ts actor origin = .ok revision) :
    HistoryRevisionOk revision := by
  obtain ⟨_, _, same⟩ := bind_eq_ok.mp made
  cases same
  refine ⟨⟨ok.unknown.few, fun field member => ?_, ok.unknown.items⟩, ok.tags⟩
  have foreign := ok.unknown.foreign field member
  omega

theorem historyPush_ok {entry pushed : Entry} {revision : HistoryRevision} (ok : EntryOk entry)
    (new : HistoryRevisionOk revision) (done : historyPush entry revision = .ok pushed) : EntryOk pushed := by
  unfold historyPush at done
  split at done
  · cases done
  obtain ⟨_, _, rest⟩ := bind_eq_ok.mp done
  split at rest
  next room =>
    cases rest
    refine { ok with fewRevisions := ?_, history := ?_ }
    · rw [List.length_append, List.length_singleton]
      exact room
    · exact forall_snoc ok.history new
  next full =>
    cases rest
    have few := ok.fewRevisions
    refine { ok with fewRevisions := ?_, history := ?_ }
    · rw [List.length_append, List.length_singleton, List.length_tail]
      unfold historyMaxRevisions maxHistoryPerEntry at *
      omega
    · exact forall_snoc (fun revision member => ok.history revision (List.mem_of_mem_tail member)) new

theorem replaceEntry_ok {replacement source result : Entry} (raw : EntryRawOk replacement) (ok : EntryOk source)
    (done : replaceEntry replacement source = .ok result) : EntryOk result := by
  obtain ⟨copy, cloned, rest⟩ := bind_eq_ok.mp done
  obtain ⟨revision, made, pushed⟩ := bind_eq_ok.mp rest
  exact historyPush_ok (entryClone_raw raw cloned) (revision_of_entry ok made) pushed

/-- The last items of a list, as many as there is room for. -/
def newest {α : Type} (count : Nat) (items : List α) : List α := items.drop (items.length - count)

theorem newest_snoc {α : Type} {count : Nat} {items : List α} (room : items.length < count) (item : α) :
    newest count (items ++ [item]) = items ++ [item] := by
  unfold newest
  rw [List.length_append, List.length_singleton, Nat.sub_eq_zero_of_le room]
  rfl

theorem newest_snoc_full {α : Type} {count : Nat} {items : List α} (positive : 0 < count) (full : items.length = count)
    (item : α) :
    newest count (items ++ [item]) = items.tail ++ [item] := by
  have nonempty : items ≠ [] := List.ne_nil_of_length_pos (by omega)
  unfold newest
  rw [List.length_append, List.length_singleton, full, Nat.add_sub_cancel_left, List.drop_one]
  exact List.tail_append_of_ne_nil nonempty

/-- An entry as a revision of its history. -/
def snapshot (entry : Entry) (revisionTsMs : UInt64) : HistoryRevision where
  revisionTsMs := revisionTsMs
  actor := .empty
  source := .empty
  id := entry.id
  title := entry.title
  username := entry.username
  password := entry.password
  url := entry.url
  notes := entry.notes
  groupId := entry.groupId
  tags := entry.tags
  createdAtMs := entry.createdAtMs
  updatedAtMs := entry.updatedAtMs
  favorite := entry.favorite
  unknownFields := entry.unknownFields

theorem revision_eq {entry : Entry} {ts : UInt64} {revision : HistoryRevision}
    (made : entryRevisionFromEntry entry ts .empty .empty = .ok revision) :
    revision = snapshot entry ts := by
  obtain ⟨_, _, same⟩ := bind_eq_ok.mp made
  cases same
  rfl

theorem historyPush_eq {entry pushed : Entry} {revision : HistoryRevision} (done : historyPush entry revision = .ok pushed) :
    pushed = { entry with history := newest historyMaxRevisions (entry.history ++ [revision]) } := by
  unfold historyPush at done
  split at done
  · cases done
  next few =>
    obtain ⟨_, _, rest⟩ := bind_eq_ok.mp done
    split at rest
    next room =>
      cases rest
      rw [newest_snoc room]
    next full =>
      cases rest
      rw [newest_snoc_full (by decide) (Nat.le_antisymm (Nat.not_lt.mp few) (Nat.not_lt.mp full))]

/-- When a revision was replaced. -/
def revisionTime (replacement source : Entry) : UInt64 := if replacement.updatedAtMs ≠ 0 then replacement.updatedAtMs
    else source.updatedAtMs

def superseded (replacement source : Entry) : Entry :=
  { ensureEntryUrlAlias replacement with
    history := newest historyMaxRevisions (replacement.history ++ [snapshot source (revisionTime replacement source)]) }

theorem entryClone_eq {entry copy : Entry} (cloned : entryClone entry = .ok copy) : copy = ensureEntryUrlAlias entry := by
  obtain ⟨_, _, rest⟩ := bind_eq_ok.mp cloned
  obtain ⟨_, _, same⟩ := bind_eq_ok.mp rest
  cases same
  rfl

theorem replaceEntry_eq {replacement source result : Entry} (done : replaceEntry replacement source = .ok result) :
    result = superseded replacement source := by
  obtain ⟨copy, cloned, rest⟩ := bind_eq_ok.mp done
  obtain ⟨revision, made, pushed⟩ := bind_eq_ok.mp rest
  rw [historyPush_eq pushed, revision_eq made, entryClone_eq cloned]
  rfl

theorem appendEntry_result {payload result : Payload} {entry : Entry} (new : EntryOk entry)
    (done : payloadAppendEntry payload entry = .ok result) :
    result = { payload with entries := payload.entries ++ [entry] } := by
  by_cases room : payload.entries.length < maxEntries
  · rw [appendEntry_eq new room] at done
    cases done
    rfl
  · rw [payloadAppendEntry, if_pos (by omega)] at done
    cases done

def OthersKept (entryId : CStr) : List Entry → List Entry → Prop :=
  List.Forall₂ fun old new => old.id ≠ entryId → new = old

def renamed (entryId replacement id : CStr) : CStr := if id = entryId then replacement else id

def updatedEntry (entryId : CStr) (replacement source : Entry) : Entry :=
    if source.id = entryId then superseded replacement source else source

theorem othersKept_updated (entryId : CStr) (replacement : Entry) (sources : List Entry) :
    OthersKept entryId sources (sources.map (updatedEntry entryId replacement)) := by
  induction sources with
  | nil => exact .nil
  | cons source rest ih => exact .cons (fun other => if_neg other) ih

theorem ids_updated (entryId : CStr) (replacement : Entry) (sources : List Entry) :
    (sources.map (updatedEntry entryId replacement)).map (·.id) =
    (sources.map (·.id)).map (renamed entryId replacement.id) := by
  rw [List.map_map, List.map_map]
  refine List.map_congr_left fun source _ => ?_
  change (updatedEntry entryId replacement source).id = renamed entryId replacement.id source.id
  unfold updatedEntry renamed
  split
  · rfl
  · rfl

theorem update_step {entryId : CStr} {replacement source : Entry} {updated next : Payload} {found seen : Bool}
    (raw : EntryRawOk replacement) (ok : EntryOk source) (before : PayloadOk updated)
    (done : updateStep entryId replacement (updated, found) source = .ok (next, seen)) :
    PayloadOk next ∧ next = { updated with entries := updated.entries ++ [updatedEntry entryId replacement source] } := by
  unfold updatedEntry
  simp only [updateStep] at done
  split at done
  next same =>
    obtain ⟨entry, replaced, rest⟩ := bind_eq_ok.mp done
    obtain ⟨result, appended, pair⟩ := bind_eq_ok.mp rest
    have new := replaceEntry_ok raw ok replaced
    cases pair
    rw [if_pos same, ← replaceEntry_eq replaced]
    exact ⟨appendEntry_ok before new appended, appendEntry_result new appended⟩
  next other =>
    obtain ⟨result, appended, pair⟩ := bind_eq_ok.mp done
    cases pair
    rw [if_neg other]
    exact ⟨appendEntry_ok before ok appended, appendEntry_result ok appended⟩

/-- A loop over the entries whose steps each append what they keep of one. -/
theorem entries_loop {step : Payload × Bool → Entry → Except PmError (Payload × Bool)} {kept : Entry → List Entry}
    (appends : ∀ source updated next found seen, EntryOk source → PayloadOk updated →
    step (updated, found) source = .ok (next, seen) →
      PayloadOk next ∧ next = { updated with entries := updated.entries ++ kept source })
    {sources : List Entry} (ok : ∀ source ∈ sources, EntryOk source) {updated last : Payload} {found seen : Bool}
      (before : PayloadOk updated)
    (done : sources.foldlM step (updated, found) = .ok (last, seen)) :
    PayloadOk last ∧ last = { updated with entries := updated.entries ++ sources.flatMap kept } := by
  induction sources generalizing updated found with
  | nil =>
    cases done
    exact ⟨before, by simp⟩
  | cons source rest ih =>
    rw [List.foldlM_cons] at done
    obtain ⟨⟨next, middle⟩, one, others⟩ := bind_eq_ok.mp done
    obtain ⟨good, rfl⟩ := appends _ _ _ _ _ (ok source List.mem_cons_self) before one
    obtain ⟨final, rfl⟩ := ih (fun later member => ok later (List.mem_cons_of_mem source member)) good others
    exact ⟨final, by simp⟩

theorem update_loop {entryId : CStr} {replacement : Entry} (raw : EntryRawOk replacement) {sources : List Entry}
    (ok : ∀ source ∈ sources, EntryOk source) {updated last : Payload} {found seen : Bool} (before : PayloadOk updated)
    (done : sources.foldlM (updateStep entryId replacement) (updated, found) = .ok (last, seen)) :
    PayloadOk last ∧ last = { updated with entries := updated.entries ++ sources.map (updatedEntry entryId replacement) } := by
  rw [List.map_eq_flatMap]
  exact entries_loop (fun _ _ _ _ _ entryOk => update_step raw entryOk) ok before done

theorem remove_step {entryId : CStr} {source : Entry} {updated next : Payload} {found seen : Bool}
    (ok : EntryOk source) (before : PayloadOk updated)
    (done : removeStep entryId (updated, found) source = .ok (next, seen)) :
    PayloadOk next ∧
      next = { updated with entries := updated.entries ++ [source].filter (fun entry => entry.id ≠ entryId) } := by
  simp only [removeStep] at done
  split at done
  next same =>
    cases done
    exact ⟨before, by simp [same]⟩
  next other =>
    obtain ⟨result, appended, pair⟩ := bind_eq_ok.mp done
    cases pair
    exact ⟨appendEntry_ok before ok appended, by simpa [other] using appendEntry_result ok appended⟩

theorem remove_loop {entryId : CStr} {sources : List Entry} (ok : ∀ source ∈ sources, EntryOk source)
    {updated last : Payload} {found seen : Bool} (before : PayloadOk updated)
    (done : sources.foldlM (removeStep entryId) (updated, found) = .ok (last, seen)) :
    PayloadOk last ∧
      last = { updated with entries := updated.entries ++ sources.filter (fun entry => entry.id ≠ entryId) } := by
  have kept : sources.filter (fun entry => entry.id ≠ entryId) =
    sources.flatMap fun source => [source].filter fun entry => entry.id ≠ entryId := by
    rw [← List.filter_flatMap, List.flatMap_singleton']
  rw [kept]
  exact entries_loop (fun _ _ _ _ _ entryOk => remove_step entryOk) ok before done

theorem getPayloadModel_ok {handle last : VaultHandle} {payload : Payload}
    (done : vaultGetPayloadModel handle = (.ok payload, last)) :
    last = handle ∧ handle.locked = false ∧ payloadDecodeCbor handle.payload = .ok payload := by
  unfold vaultGetPayloadModel at done
  rw [Proc.bind_of_ok (Proc.get_apply handle)] at done
  split at done
  · cases done
  next unlocked =>
    split at done
    · cases done
    · cases decoded : payloadDecodeCbor handle.payload with
      | error problem =>
        rw [decoded] at done
        cases done
      | ok value =>
        rw [decoded] at done
        cases done
        exact ⟨rfl, by simpa using unlocked, rfl⟩

theorem setPayloadModel_ok {handle last : VaultHandle} {payload : Payload} (ok : PayloadOk payload)
    (done : vaultSetPayloadModel payload handle = (.ok (), last)) :
    vaultGetPayloadModel last = (.ok payload, last) := by
  unfold vaultSetPayloadModel at done
  rw [Proc.bind_of_ok (Proc.get_apply handle)] at done
  split at done
  · cases done
  next unlocked =>
    have open_ : handle.locked = false := by simpa using unlocked
    rw [payloadEncodeCbor_eq ok] at done
    split at done
    next fits =>
      have nonempty := List.length_pos_iff.mp (solid_payloadTokens ok).bytesOf_pos
      simp only [liftVault, pure_bind, vaultSetPayload, Proc.bind_apply, Proc.get_apply, if_neg nonempty, open_,
        Bool.false_eq_true, if_false, decode_payloadTokens ok, Proc.pure_apply, Proc.modify_apply] at done
      cases done
      simp only [vaultGetPayloadModel, Proc.bind_apply, Proc.get_apply, Bool.false_eq_true, if_false,
        if_neg nonempty, decode_payloadTokens ok, liftVault, Proc.pure_apply]
    next crowded =>
      simp only [liftVault, Proc.bind_apply, Proc.fail_apply] at done
      cases done

theorem updatedInit_ok {payload : Payload} (ok : PayloadOk payload) : PayloadOk (updatedInit payload) :=
  { payloadInit_ok with schema := ok.schema }

section
variable {entryId : CStr} {replacement : Entry} {handle last : VaultHandle} {before : Payload}

/-- A rewrite of the entries that succeeds has found the entry and installed what the loop
came to. -/
theorem rewrite_looped {step : Payload × Bool → Entry → Except PmError (Payload × Bool)}
    (done : (liftVault (before.entries.foldlM step (updatedInit before, false)) >>= fun result =>
      if !result.2 then Proc.fail PmError.notFound else vaultSetPayloadModel result.1) handle = (.ok (), last)) :
    ∃ updated, before.entries.foldlM step (updatedInit before, false) = .ok (updated, true) ∧
    vaultSetPayloadModel updated handle = (.ok (), last) := by
  cases looped : before.entries.foldlM step (updatedInit before, false) with
  | error problem =>
    rw [looped] at done
    cases done
  | ok result =>
    obtain ⟨updated, found⟩ := result
    rw [looped] at done
    simp only [liftVault, pure_bind] at done
    cases found with
    | false => cases done
    | true => exact ⟨updated, rfl, done⟩

theorem update_looped (unlocked : vaultGetPayloadModel handle = (.ok before, handle))
    (done : vaultEntryUpdate entryId replacement handle = (.ok (), last)) :
    ∃ updated, before.entries.foldlM (updateStep entryId replacement) (updatedInit before, false) = .ok (updated, true) ∧
      vaultSetPayloadModel updated handle = (.ok (), last) := by
  unfold vaultEntryUpdate at done
  split at done
  · cases done
  rw [Proc.bind_of_ok unlocked] at done
  exact rewrite_looped done

theorem update_installs (unlocked : vaultGetPayloadModel handle = (.ok before, handle)) (raw : EntryRawOk replacement)
    (done : vaultEntryUpdate entryId replacement handle = (.ok (), last)) :
    vaultGetPayloadModel last =
      (.ok { updatedInit before with entries := before.entries.map (updatedEntry entryId replacement) }, last) := by
  have ok := payloadOk_of_decode (getPayloadModel_ok unlocked).2.2
  obtain ⟨updated, looped, installed⟩ := update_looped unlocked done
  obtain ⟨good, rfl⟩ := update_loop raw ok.entries (updatedInit_ok ok) looped
  exact setPayloadModel_ok good installed

theorem remove_installs (unlocked : vaultGetPayloadModel handle = (.ok before, handle))
    (done : vaultEntryRemove entryId handle = (.ok (), last)) :
    vaultGetPayloadModel last =
      (.ok { updatedInit before with entries := before.entries.filter fun entry => entry.id ≠ entryId }, last) := by
  have ok := payloadOk_of_decode (getPayloadModel_ok unlocked).2.2
  unfold vaultEntryRemove at done
  split at done
  · cases done
  rw [Proc.bind_of_ok unlocked] at done
  obtain ⟨updated, looped, installed⟩ := rewrite_looped done
  obtain ⟨good, rfl⟩ := remove_loop ok.entries (updatedInit_ok ok) looped
  exact setPayloadModel_ok good installed

end

structure OnlyEntries (payload : Payload) : Prop where
  groups : payload.groups = []
  attachments : payload.attachments = []
  recycleBin : payload.recycleBin = recycleBinInit
  vaultUuid : payload.vaultUuid = none
  auditCache : payload.securityAuditCacheCbor = []
  unknown : payload.unknownFields = []

private theorem rebuilt_iff (before : Payload) (entries : List Entry) :
    { updatedInit before with entries } = { before with entries } ↔ OnlyEntries before := by
  constructor
  · intro same
    simp only [updatedInit, payloadInit, Payload.mk.injEq, true_and] at same
    obtain ⟨uuid, groups, attachments, bin, audit, unknown⟩ := same
    exact ⟨groups.symm, attachments.symm, bin.symm, uuid.symm, audit.symm, unknown.symm⟩
  · intro bare
    simp only [updatedInit, payloadInit, bare.groups, bare.attachments, bare.recycleBin, bare.vaultUuid,
      bare.auditCache, bare.unknown]

/-- A successful update or removal changes nothing but the entries exactly when the
payload held nothing but entries. -/
theorem entry_change_frame_iff (handle : VaultHandle) (before : Payload) (entryId : CStr)
    (unlocked : vaultGetPayloadModel handle = (.ok before, handle)) :
    (∀ replacement last, EntryRawOk replacement →
      vaultEntryUpdate entryId replacement handle = (.ok (), last) →
      ((∃ after, vaultGetPayloadModel last = (.ok after, last) ∧
          after = { before with entries := after.entries } ∧ OthersKept entryId before.entries after.entries) ↔
        OnlyEntries before)) ∧
    (∀ last, vaultEntryRemove entryId handle = (.ok (), last) →
      ((∃ after, vaultGetPayloadModel last = (.ok after, last) ∧
          after = { before with entries := after.entries } ∧
          after.entries = before.entries.filter fun entry => entry.id ≠ entryId) ↔
        OnlyEntries before)) := by
  constructor
  · intro replacement last raw done
    have installed := update_installs unlocked raw done
    constructor
    · rintro ⟨after, read, frame, _⟩
      rw [installed] at read
      cases read
      exact (rebuilt_iff before _).mp frame
    · intro bare
      exact ⟨_, installed, (rebuilt_iff before _).mpr bare, othersKept_updated entryId replacement before.entries⟩
  · intro last done
    have installed := remove_installs unlocked done
    constructor
    · rintro ⟨after, read, frame, _⟩
      rw [installed] at read
      cases read
      exact (rebuilt_iff before _).mp frame
    · intro bare
      exact ⟨_, installed, (rebuilt_iff before _).mpr bare, rfl⟩

def idA : CStr := ⟨[0x61], by decide, by decide⟩

/-- A vault with the single entry `a`. -/
def singleVault : VaultHandle :=
  { locked := false, payload := [0xA4, 1, 1, 2, 1, 3, 1, 4, 0x81, 0xA1, 1, 0x61, 0x61] }

/-- The same vault with one group. -/
def groupedVault : VaultHandle :=
  { locked := false, payload := [0xA5, 1, 1, 2, 1, 3, 1, 4, 0x81, 0xA1, 1, 0x61, 0x61, 5, 0x81, 0xA0] }

def entryA : Entry where
  id := idA
  title := idA
  username := .empty
  password := .empty
  url := .empty
  urls := []
  notes := .empty
  groupId := .empty
  tags := []
  createdAtMs := 0
  updatedAtMs := 2
  accessedAtMs := 0
  favorite := false
  colorLabel := .empty
  expiryAtMs := 0
  expiryWarnDays := 0
  requiresFreshBiometric := false
  customFields := []
  attachmentRefs := []
  history := []
  unknownFields := []

def modelOf (handle : VaultHandle) : Payload :=
  match vaultGetPayloadModel handle with
  | (.ok payload, _) => payload
  | (.error _, _) => payloadInit

theorem entry_change_frame_singleVault :
    (∃ after, vaultGetPayloadModel (vaultEntryUpdate idA entryA singleVault).2 =
        (.ok after, (vaultEntryUpdate idA entryA singleVault).2) ∧
      after = { modelOf singleVault with entries := after.entries } ∧
      OthersKept idA (modelOf singleVault).entries after.entries) ∧
    (∃ after, vaultGetPayloadModel (vaultEntryRemove idA singleVault).2 =
        (.ok after, (vaultEntryRemove idA singleVault).2) ∧
      after = { modelOf singleVault with entries := after.entries } ∧
      after.entries = (modelOf singleVault).entries.filter fun entry => entry.id ≠ idA) := by
  have frame := entry_change_frame_iff singleVault (modelOf singleVault) idA (by decide +kernel)
  have bare : OnlyEntries (modelOf singleVault) := by
    constructor <;> decide +kernel
  have raw : EntryRawOk entryA := ⟨.nil 20, by simp [entryA], by simp [entryA], by simp [entryA]⟩
  exact ⟨(frame.1 entryA _ raw (by decide +kernel)).mpr bare, (frame.2 _ (by decide +kernel)).mpr bare⟩

theorem entry_change_drops_groups :
    vaultGetPayloadModel groupedVault = (.ok (modelOf groupedVault), groupedVault) ∧
    (∃ last after, vaultEntryUpdate idA entryA groupedVault = (.ok (), last) ∧
      vaultGetPayloadModel last = (.ok after, last) ∧ after.groups ≠ (modelOf groupedVault).groups) ∧
    (∃ last after, vaultEntryRemove idA groupedVault = (.ok (), last) ∧
      vaultGetPayloadModel last = (.ok after, last) ∧ after.groups ≠ (modelOf groupedVault).groups) := by
  refine ⟨by decide +kernel, ?_, ?_⟩
  · refine ⟨(vaultEntryUpdate idA entryA groupedVault).2,
      modelOf (vaultEntryUpdate idA entryA groupedVault).2, ?_⟩
    decide +kernel
  · refine ⟨(vaultEntryRemove idA groupedVault).2, modelOf (vaultEntryRemove idA groupedVault).2, ?_⟩
    decide +kernel

end Hiya.Pm
