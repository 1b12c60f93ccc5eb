import Hiya.Proofs.PayloadSound

/-! Round trips of whole payloads. A payload that was decoded is well formed; a
well-formed payload is read back from its tokens; and the writer produces those tokens
exactly when the encoder's stack of open containers and its largest buffer suffice. -/

namespace Hiya.Pm
open Library Cbor
open Proc (Ensures)

structure PayloadOk (payload : Payload) : Prop where
  schema : payload.schemaVersion = schemaVersion
  fewEntries : payload.entries.length ≤ maxEntries
  entries : ∀ entry ∈ payload.entries, EntryOk entry
  fewGroups : payload.groups.length ≤ maxGroups
  groups : ∀ group ∈ payload.groups, GroupOk group
  fewAttachments : payload.attachments.length ≤ maxAttachments
  attachments : ∀ attachment ∈ payload.attachments, AttachmentOk attachment
  recycleBin : RecycleBinOk payload.recycleBin
  auditCache : RawOk payload.securityAuditCacheCbor
  unknown : UnknownFieldsOk 9 payload.unknownFields

theorem payloadInit_ok : PayloadOk payloadInit where
  schema := rfl
  fewEntries := Nat.zero_le _
  entries := by simp [payloadInit]
  fewGroups := Nat.zero_le _
  groups := by simp [payloadInit]
  fewAttachments := Nat.zero_le _
  attachments := by simp [payloadInit]
  recycleBin := ⟨.nil 3⟩
  auditCache := .inl rfl
  unknown := .nil 9

theorem forM_ok {α : Type} {check : α → Except PmError Unit} {items : List α}
    (passes : ∀ item ∈ items, check item = .ok ()) : items.forM check = .ok () := by
  induction items with
  | nil => rfl
  | cons item rest ih =>
    change (check item >>= fun _ => rest.forM check) = .ok ()
    rw [passes item (by simp)]
    exact ih fun later member => passes later (List.mem_cons_of_mem item member)

theorem validateHistoryRevisionModel_ok {revision : HistoryRevision} (ok : HistoryRevisionOk revision) :
    validateHistoryRevisionModel revision = .ok () := by
  have few := ok.tags
  rw [validateHistoryRevisionModel, if_neg (by omega)]

theorem validateEntryModel_ok {entry : Entry} (ok : EntryOk entry) : validateEntryModel entry = .ok () := by
  have tags := ok.tags
  have urls := ok.urls
  have customFields := ok.fewCustomFields
  have attachmentRefs := ok.fewAttachmentRefs
  have history := ok.fewRevisions
  rw [validateEntryModel, if_neg (by omega)]
  exact forM_ok fun revision member => validateHistoryRevisionModel_ok (ok.history revision member)

theorem validatePayloadModel_ok {payload : Payload} (ok : PayloadOk payload) :
    validatePayloadModel payload = .ok () := by
  have entries := ok.fewEntries
  have groups := ok.fewGroups
  have attachments := ok.fewAttachments
  rw [validatePayloadModel, if_neg (by simp only [ok.schema, ne_eq, not_true_eq_false, false_or]; omega)]
  exact forM_ok fun entry member => validateEntryModel_ok (ok.entries entry member)

theorem ensureEntryUrlAlias_ok {entry : Entry} (ok : EntryOk entry) : ensureEntryUrlAlias entry = entry := by
  have primary := ok.primary
  have first : entry.urls.headD entry.url = entry.url := by
    cases urls : entry.urls with
    | nil => rfl
    | cons first rest => rw [primary, urls]; rfl
  have kept := ensureUrlAlias_ok ok
  rw [first] at kept
  simp only [ensureEntryUrlAlias, kept]

theorem entryClone_ok {entry : Entry} (ok : EntryOk entry) : entryClone entry = .ok entry := by
  have revisions := forM_ok fun revision member => validateHistoryRevisionModel_ok (ok.history revision member)
  rw [entryClone, validateEntryModel_ok ok, revisions, ensureEntryUrlAlias_ok ok]
  rfl

theorem attachmentClone_ok {attachment : Attachment} (ok : AttachmentOk attachment) :
    attachmentClone attachment = attachment := by
  have size := attachmentSizeValue_eq ok
  unfold attachmentSizeValue at size
  rw [attachmentClone, size]

theorem appendEntry_eq {payload : Payload} {entry : Entry} (ok : EntryOk entry)
    (room : payload.entries.length < maxEntries) :
    payloadAppendEntry payload entry = .ok { payload with entries := payload.entries ++ [entry] } := by
  rw [payloadAppendEntry, if_neg (by omega), entryClone_ok ok]
  rfl

theorem appendGroup_eq {payload : Payload} (group : Group) (room : payload.groups.length < maxGroups) :
    payloadAppendGroup payload group = .ok { payload with groups := payload.groups ++ [group] } := by
  rw [payloadAppendGroup, if_neg (by omega)]

theorem appendAttachment_eq {payload : Payload} {attachment : Attachment} (ok : AttachmentOk attachment)
    (room : payload.attachments.length < maxAttachments) :
    payloadAppendAttachment payload attachment =
      .ok { payload with attachments := payload.attachments ++ [attachment] } := by
  rw [payloadAppendAttachment, if_neg (by omega), attachmentClone_ok ok]

theorem length_snoc {α : Type} {items : List α} {item : α} {limit : Nat} (room : items.length < limit) :
    (items ++ [item]).length ≤ limit := by
  rw [List.length_append, List.length_singleton]
  omega

theorem forall_snoc {α : Type} {post : α → Prop} {items : List α} {item : α}
    (old : ∀ value ∈ items, post value) (new : post item) : ∀ value ∈ items ++ [item], post value := by
  intro value member
  rcases List.mem_append.mp member with inside | last
  · exact old value inside
  · rw [List.mem_singleton.mp last]
    exact new

theorem appendEntry_ok {payload result : Payload} {entry : Entry} (ok : PayloadOk payload) (new : EntryOk entry)
    (done : payloadAppendEntry payload entry = .ok result) : PayloadOk result := by
  by_cases room : payload.entries.length < maxEntries
  · rw [appendEntry_eq new room] at done
    cases done
    exact { ok with fewEntries := length_snoc room, entries := forall_snoc ok.entries new }
  · rw [payloadAppendEntry, if_pos (by omega)] at done
    cases done

theorem appendGroup_ok {payload result : Payload} {group : Group} (ok : PayloadOk payload) (new : GroupOk group)
    (done : payloadAppendGroup payload group = .ok result) : PayloadOk result := by
  by_cases room : payload.groups.length < maxGroups
  · rw [appendGroup_eq group room] at done
    cases done
    exact { ok with fewGroups := length_snoc room, groups := forall_snoc ok.groups new }
  · rw [payloadAppendGroup, if_pos (by omega)] at done
    cases done

theorem appendAttachment_ok {payload result : Payload} {attachment : Attachment} (ok : PayloadOk payload)
    (new : AttachmentOk attachment) (done : payloadAppendAttachment payload attachment = .ok result) :
    PayloadOk result := by
  by_cases room : payload.attachments.length < maxAttachments
  · rw [appendAttachment_eq new room] at done
    cases done
    exact { ok with fewAttachments := length_snoc room, attachments := forall_snoc ok.attachments new }
  · rw [payloadAppendAttachment, if_pos (by omega)] at done
    cases done

private theorem ensures_appending {α : Type} {item : Read α} {post : α → Prop} (holds : Ensures item post)
    {append : Payload → α → Except PmError Payload}
    (kept : ∀ {payload result value}, PayloadOk payload → post value → append payload value = .ok result →
      PayloadOk result) (limit : Nat) {payload : Payload} (ok : PayloadOk payload) :
    Ensures (decodeAppending limit item append payload) PayloadOk :=
  .after fun count => Ensures.repeatWith
    (fun _ before => holds.bind fun _ good => ensures_lift fun _ done => kept before good done) count payload ok

private theorem ensures_schema : Ensures decodeSchemaVersion fun version => version = schemaVersion := by
  refine .after fun value => .ite (fun _ => .fail) fun same => .pure ?_
  have equal : value = schemaVersion.toUInt64 := by simpa using same
  rw [equal]
  rfl

theorem ensures_payload : Ensures decodePayload PayloadOk := by
  have kept (key : UInt64) (draft : PayloadDraft) (ok : PayloadOk draft.payload) :
      Ensures (decodePayloadField key draft) fun draft => PayloadOk draft.payload := by
    unfold decodePayloadField
    simp only
    split
    all_goals first
      | exact .after fun _ => .pure { ok with }
      | skip
    · exact ensures_schema.bind fun version same => .pure { ok with schema := same }
    · exact (ensures_appending ensures_entry appendEntry_ok maxEntries ok).bind fun payload holds => .pure holds
    · exact (ensures_appending ensures_group appendGroup_ok maxGroups ok).bind fun payload holds => .pure holds
    · exact (ensures_appending ensures_attachment appendAttachment_ok maxAttachments ok).bind
        fun payload holds => .pure holds
    · exact ensures_recycleBin.bind fun bin holds => .pure { ok with recycleBin := holds }
    · exact ensures_capture.bind fun data item => .pure { ok with auditCache := .inr item }
    · exact (ensures_unknown ok.unknown (by grind)).bind fun fields holds => .pure { ok with unknown := holds }
  have read : Ensures (decodeFields decodePayloadField payloadDraftInit) fun draft => PayloadOk draft.payload :=
    ensures_fields payloadInit_ok kept
  refine read.bind fun draft ok => ?_
  exact .ite (fun _ => .fail) fun _ => .after fun dec => .ite (fun _ => .fail) fun _ => .pure ok

theorem payloadOk_of_decode {data : Bytes} {payload : Payload} (decoded : payloadDecodeCbor data = .ok payload) :
    PayloadOk payload := by
  unfold payloadDecodeCbor at decoded
  split at decoded
  · cases decoded
  · exact ensures_payload _ _ _ (Prod.ext decoded rfl)

def payloadSlot : Slot PayloadDraft UnknownField where
  get draft := draft.payload.unknownFields
  put unknownFields draft := { draft with payload := { draft.payload with unknownFields } }
  get_put _ _ := rfl
  put_get _ := rfl
  put_put _ _ _ := rfl

theorem keepsUnknown_payload : KeepsUnknown decodePayloadField payloadSlot 9 := by
  intro key draft foreign
  unfold decodePayloadField
  simp only
  split <;> first | omega | rfl

def payloadDraft (payload : Payload) : PayloadDraft where
  payload
  hasSchema := true
  hasCreated := true
  hasUpdated := true
  hasEntries := true

def entriesSlot : Slot Payload Entry where
  get payload := payload.entries
  put entries payload := { payload with entries }
  get_put _ _ := rfl
  put_get _ := rfl
  put_put _ _ _ := rfl

def groupsSlot : Slot Payload Group where
  get payload := payload.groups
  put groups payload := { payload with groups }
  get_put _ _ := rfl
  put_get _ := rfl
  put_put _ _ _ := rfl

def attachmentsSlot : Slot Payload Attachment where
  get payload := payload.attachments
  put attachments payload := { payload with attachments }
  get_put _ _ := rfl
  put_get _ := rfl
  put_put _ _ _ := rfl

variable {payload start : Payload}

private theorem decodes_entries (ok : PayloadOk payload) (empty : start.entries = []) :
    Decodes (decodeAppending maxEntries decodeEntry payloadAppendEntry start) (listTokens entryTokens payload.entries)
      { start with entries := payload.entries } :=
  decodes_appending entriesSlot empty (fun entry member => decodes_entry (ok.entries entry member)) ok.fewEntries
    (by decide) fun _ entry member room => appendEntry_eq (ok.entries entry member) room

private theorem decodes_groups (ok : PayloadOk payload) (empty : start.groups = []) :
    Decodes (decodeAppending maxGroups decodeGroup payloadAppendGroup start) (listTokens groupTokens payload.groups)
      { start with groups := payload.groups } :=
  decodes_appending groupsSlot empty (fun group member => decodes_group (ok.groups group member)) ok.fewGroups
    (by decide) fun _ group _ room => appendGroup_eq group room

private theorem decodes_attachments (ok : PayloadOk payload) (empty : start.attachments = []) :
    Decodes (decodeAppending maxAttachments decodeAttachment payloadAppendAttachment start)
      (listTokens attachmentTokens payload.attachments) { start with attachments := payload.attachments } :=
  decodes_appending attachmentsSlot empty
    (fun attachment member => decodes_attachment (ok.attachments attachment member)) ok.fewAttachments (by decide)
    fun _ attachment member room => appendAttachment_eq (ok.attachments attachment member) room

private theorem decodes_schema : Decodes decodeSchemaVersion [.uint schemaVersion.toUInt64] schemaVersion where
  solid := .one (by simp)
  reads := (decodes_uint schemaVersion.toUInt64).reads.andThen (.pure _)

private theorem decodes_uuid (uuid : Buf 16) : Decodes decodeVaultUuid [.bstr uuid.bytes] uuid where
  solid := .one (by simp)
  reads := by
    refine (reads_bstrValue uuid.bytes (by simp)).andThen ?_
    rw [dif_pos uuid.length_bytes]
    exact .pure _

private theorem links_uuid (uuid : Option (Buf 16)) {draft : PayloadDraft} (absent : draft.payload.vaultUuid = none) :
    Links decodePayloadField draft (vaultUuidField uuid)
      { draft with payload := { draft.payload with vaultUuid := uuid } } := by
  cases uuid with
  | none =>
    have same : { draft with payload := { draft.payload with vaultUuid := none } } = draft := by rw [← absent]
    rw [same]
    exact .nil draft
  | some uuid => exact .cons ((decodes_uuid uuid).map _) (.nil _)

private theorem links_payload (ok : PayloadOk payload) :
    Links decodePayloadField payloadDraftInit (payloadFields payload) (payloadDraft payload) := by
  have schema := decodes_schema
  rw [← ok.schema] at schema
  refine .cons (schema.map _) ?_
  refine .cons ((decodes_uint payload.createdAtMs).map _) ?_
  refine .cons ((decodes_uint payload.updatedAtMs).map _) ?_
  refine .cons ((decodes_entries ok rfl).map _) ?_
  refine .cons ((decodes_groups ok rfl).map _) ?_
  refine (links_uuid payload.vaultUuid rfl).append ?_
  refine .cons ((decodes_attachments ok rfl).map _) ?_
  refine .cons ((decodes_recycleBin ok.recycleBin).map _) ?_
  refine (links_raw (fun securityAuditCacheCbor draft =>
    { draft with payload := { draft.payload with securityAuditCacheCbor } }) ok.auditCache rfl rfl).append ?_
  exact links_unknown keepsUnknown_payload _ ok.unknown.foreign ok.unknown.items (few_from_none ok.unknown.few)

private theorem payloadFields_small (ok : PayloadOk payload) : (payloadFields payload).length < 2 ^ 64 := by
  have unknown := ok.unknown.few
  have audit := rawField_le 9 payload.securityAuditCacheCbor
  have uuid : (vaultUuidField payload.vaultUuid).length ≤ 1 := by
    cases payload.vaultUuid with
    | none => simp [vaultUuidField]
    | some uuid => simp [vaultUuidField]
  unfold maxUnknownFields at unknown
  simp only [payloadFields, List.length_append, List.length_cons, List.length_nil, unknownFieldsOf, List.length_map]
  omega

theorem solid_payloadTokens (ok : PayloadOk payload) : Solid (payloadTokens payload) :=
  (decodes_fields (links_payload ok) (payloadFields_small ok)).solid

theorem decode_payloadTokens (ok : PayloadOk payload) :
    payloadDecodeCbor (bytesOf (payloadTokens payload)) = .ok payload := by
  have fields := decodes_fields (links_payload ok) (payloadFields_small ok)
  have nonempty := List.length_pos_iff.mp fields.solid.bytesOf_pos
  have here : (Decoder.init (bytesOf (recordTokens (payloadFields payload)))).rest =
      bytesOf (recordTokens (payloadFields payload)) ++ [] := by
    simp [Decoder.init, Decoder.rest]
  have read := fields.reads _ [] rfl here
  unfold payloadDecodeCbor payloadTokens
  rw [if_neg nonempty, decodePayload, Proc.bind_of_ok read]
  simp [payloadDraft, Proc.bind_apply, Decoder.atEnd, Decoder.init, Decoder.advance]

/-- No container of the payload is opened while the encoder's stack is full. A map
that holds raw values stays open past its own end, until as many further items as it
has raw values were written. -/
def ContainersFit (payload : Payload) : Prop := (nestAll (payloadTokens payload) []).isSome

instance (payload : Payload) : Decidable (ContainersFit payload) :=
  inferInstanceAs (Decidable ((nestAll (payloadTokens payload) []).isSome = true))

def encodedSize (payload : Payload) : Nat := (bytesOf (payloadTokens payload)).length

theorem emitAll_error {tokens : List Token} {enc last : Encoder} {problem : PmError}
    (failed : emitAll tokens enc = (.error problem, last)) : problem = .serialize := by
  unfold emitAll serialize Proc.orFail at failed
  split at failed
  · cases failed
  · cases failed
    rfl

private theorem encodePayload_ok (ok : PayloadOk payload) :
    encodePayload payload = emitAll (payloadTokens payload) >>= fun _ => checkEncoder := by
  refine encodePayload_eq (validatePayloadModel_ok ok) fun entry member => ?_
  have good := ok.entries entry member
  exact encodeEntry_eq (validateEntryModel_ok good) fun revision inside =>
    validateHistoryRevisionModel_ok (good.history revision inside)

theorem encodePayloadInto_eq (ok : PayloadOk payload) (capacity : Nat) :
    encodePayloadInto payload capacity =
      if ContainersFit payload ∧ encodedSize payload ≤ capacity then .ok (bytesOf (payloadTokens payload))
      else .error .serialize := by
  have writes := writes_emitAll (payloadTokens payload) (solid_payloadTokens ok).2
  have ready : Ready (Encoder.init capacity) := ⟨rfl, Nat.zero_le _⟩
  have sized : (Encoder.init capacity).buf.length + (bytesOf (payloadTokens payload)).length = encodedSize payload :=
    Nat.zero_add _
  unfold encodePayloadInto
  rw [encodePayload_ok ok]
  by_cases fits : ContainersFit payload ∧ encodedSize payload ≤ capacity
  · obtain ⟨stack, nested⟩ := Option.isSome_iff_exists.mp fits.1
    have written := writes.fits (Encoder.init capacity) stack ready (by rw [sized]; exact fits.2) nested
    rw [Proc.bind_of_ok written, if_pos fits]
    simp [checkEncoder, Proc.bind_apply, moved, Encoder.append, Encoder.setStack, Encoder.init, Encoder.len]
  · have reason : capacity < encodedSize payload ∨ nestAll (payloadTokens payload) [] = none := by
      by_cases nested : ContainersFit payload
      · exact .inl (by simpa [nested] using fits)
      · exact .inr (by simpa [ContainersFit] using nested)
    obtain ⟨problem, last, failed⟩ := writes.full (Encoder.init capacity) ready (by rw [sized]; exact reason)
    rw [Proc.bind_of_error failed, emitAll_error failed, if_neg fits]

theorem encodeAttempts_eq (ok : PayloadOk payload) (attempts capacity : Nat) :
    encodeAttempts payload (attempts + 1) capacity =
      if ContainersFit payload ∧ encodedSize payload ≤ capacity * 2 ^ attempts then
        .ok (bytesOf (payloadTokens payload))
      else .error .serialize := by
  induction attempts generalizing capacity with
  | zero =>
    rw [encodeAttempts, encodePayloadInto_eq ok, Nat.pow_zero, Nat.mul_one]
    by_cases fits : ContainersFit payload ∧ encodedSize payload ≤ capacity
    · rw [if_pos fits]
    · rw [if_neg fits]
      rfl
  | succ attempts ih =>
    have grows : capacity ≤ capacity * 2 ^ (attempts + 1) := Nat.le_mul_of_pos_right _ (Nat.two_pow_pos _)
    have doubled : capacity * 2 * 2 ^ attempts = capacity * 2 ^ (attempts + 1) := by
      rw [Nat.pow_succ, Nat.mul_assoc, Nat.mul_comm 2]
    rw [encodeAttempts, encodePayloadInto_eq ok]
    by_cases fits : ContainersFit payload ∧ encodedSize payload ≤ capacity
    · rw [if_pos fits, if_pos ⟨fits.1, Nat.le_trans fits.2 grows⟩]
    · rw [if_neg fits]
      simp only
      rw [ih, doubled]

theorem payloadEncodeCbor_eq (ok : PayloadOk payload) :
    payloadEncodeCbor payload =
      if ContainersFit payload ∧ encodedSize payload ≤ 2 ^ 31 then .ok (bytesOf (payloadTokens payload))
      else .error .serialize :=
  encodeAttempts_eq ok 19 4096

/-- A decoded payload survives being written and read again exactly when its containers
and its bytes fit. -/
theorem payload_round_trip_iff (data : Bytes) (payload : Payload)
    (decoded : payloadDecodeCbor data = .ok payload) :
    (∃ out, payloadEncodeCbor payload = .ok out ∧ payloadDecodeCbor out = .ok payload) ↔
      ContainersFit payload ∧ encodedSize payload ≤ 2 ^ 31 := by
  have ok := payloadOk_of_decode decoded
  rw [payloadEncodeCbor_eq ok]
  constructor
  · rintro ⟨out, written, _⟩
    by_cases fits : ContainersFit payload ∧ encodedSize payload ≤ 2 ^ 31
    · exact fits
    · rw [if_neg fits] at written
      cases written
  · intro fits
    rw [if_pos fits]
    exact ⟨_, rfl, decode_payloadTokens ok⟩

/-- Two entries, one in a group and with a field that is not known. -/
def siteVault : Bytes :=
  [0xA5, 1, 1, 2, 1, 3, 2, 4, 0x82] ++
    [0xA6, 1, 0x61, 0x61, 2, 0x64, 0x73, 0x69, 0x74, 0x65, 4, 0x62, 0x70, 0x77, 5, 0x61, 0x75, 8, 0x61, 0x67, 0x18,
      0x40, 0x81, 1] ++
    [0xA2, 1, 0x61, 0x62, 2, 0x64, 0x6D, 0x61, 0x69, 0x6C] ++ [5, 0x81, 0xA2, 1, 0x61, 0x67, 3, 0x64, 0x77, 0x6F, 0x72, 0x6B]

/-- The vault comes back, and neither of its parts is empty. -/
theorem payload_round_trip_siteVault : ∃ payload, payloadDecodeCbor siteVault = .ok payload ∧ payload.entries.length = 2 ∧
    payload.groups.length = 1 ∧ ∃ out, payloadEncodeCbor payload = .ok out ∧ payloadDecodeCbor out = .ok payload := by
  have counts : (payloadDecodeCbor siteVault).toOption.map
    (fun payload => (payload.entries.length, payload.groups.length)) = some (2, 1) := by
    decide +kernel
  have fits : (payloadDecodeCbor siteVault).toOption.all fun payload => ContainersFit payload ∧
    encodedSize payload ≤ 2 ^ 31 := by
    decide +kernel
  cases decoded : payloadDecodeCbor siteVault with
  | error problem =>
    rw [decoded] at counts
    cases counts
  | ok payload =>
    rw [decoded] at counts fits
    obtain ⟨entries, groups⟩ := Prod.mk.inj (Option.some.inj counts)
    exact ⟨payload, rfl, entries, groups, (payload_round_trip_iff siteVault payload decoded).mpr (of_decide_eq_true fits)⟩

/-- An entry with thirteen attachment references, each with one unknown field. -/
def crowdedVault : Bytes :=
  [0xA4, 1, 1, 2, 1, 3, 1, 4, 0x81, 0xA1, 0x11, 0x8D] ++ (List.replicate 13 [0xA1, 2, 1]).flatten

def crowdedVaultPayload : Payload :=
  { payloadInit with
    createdAtMs := 1
    updatedAtMs := 1
    entries := [{
      id := .empty, title := .empty, username := .empty, password := .empty, url := .empty, urls := []
      notes := .empty, groupId := .empty, tags := [], createdAtMs := 0, updatedAtMs := 0, accessedAtMs := 0
      favorite := false, colorLabel := .empty, expiryAtMs := 0, expiryWarnDays := 0, requiresFreshBiometric := false
      customFields := [], history := [], unknownFields := []
      attachmentRefs := List.replicate 13 { attachmentId := .empty, unknownFields := [⟨2, [1]⟩] } }] }

/-- Raw values are not counted in their maps, so each reference leaves its map open and
the writer runs out of levels. No byte of the input is zero. -/
theorem payload_round_trip_crowdedVault :
    0 ∉ crowdedVault ∧ payloadDecodeCbor crowdedVault = .ok crowdedVaultPayload ∧
      ¬∃ out, payloadEncodeCbor crowdedVaultPayload = .ok out ∧ payloadDecodeCbor out = .ok crowdedVaultPayload := by
  have decoded : payloadDecodeCbor crowdedVault = .ok crowdedVaultPayload := by decide +kernel
  refine ⟨by decide, decoded, ?_⟩
  rw [payloadEncodeCbor_eq (payloadOk_of_decode decoded)]
  have stuck : ¬ContainersFit crowdedVaultPayload := by decide +kernel
  rw [if_neg fun fits => stuck fits.1]
  rintro ⟨out, written, _⟩
  cases written

end Hiya.Pm
