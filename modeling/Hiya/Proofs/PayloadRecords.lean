import Hiya.Proofs.PayloadReads

/-! When a record is well formed, and that a well-formed record is read back from its
own tokens. The conditions do not look at the strings of a record, so they make sense
while it is still being decoded. -/

namespace Hiya.Pm
open Library Cbor

private theorem fields_small {known : List Field} {unknown : List UnknownField}
    (few : unknown.length ≤ maxUnknownFields) (little : known.length ≤ 20) :
    (known ++ unknownFieldsOf unknown).length < 2 ^ 64 := by
  unfold maxUnknownFields at few
  rw [List.length_append, unknownFieldsOf, List.length_map]
  omega

theorem few_from_none {fields : List UnknownField} (few : fields.length ≤ maxUnknownFields) :
    ([] : List UnknownField).length + fields.length ≤ maxUnknownFields := by
  simpa using few

structure CustomFieldOk {Text : Type} (field : CustomFieldOf Text) : Prop where
  unknown : UnknownFieldsOk 5 field.unknownFields

def customFieldSlot : Slot (CustomFieldOf (Option CStr)) UnknownField where
  get field := field.unknownFields
  put unknownFields field := { field with unknownFields }
  get_put _ _ := rfl
  put_get _ := rfl
  put_put _ _ _ := rfl

theorem keepsUnknown_customField : KeepsUnknown decodeCustomFieldField customFieldSlot 5 := by
  intro key field foreign
  unfold decodeCustomFieldField
  split <;> first | omega | rfl

theorem decodes_customFieldType (field : CustomFieldOf (Option CStr)) (type : CustomFieldType) :
    Decodes (decodeCustomFieldField 2 field) [.uint type.code] { field with type } where
  solid := .one (by simp)
  reads := by
    refine (decodes_uint type.code).reads.andThen ?_
    cases type <;> exact .pure _

def customFieldDraft (field : CustomField) : CustomFieldOf (Option CStr) :=
  { field with
    name := some field.name
    textValue := some field.textValue
    binaryRef := some field.binaryRef }

theorem decodes_customField {field : CustomField} (ok : CustomFieldOk field) :
    Decodes decodeCustomField (customFieldTokens field) field := by
  have links : Links decodeCustomFieldField customFieldZero (customFieldFields field) (customFieldDraft field) := by
    refine .cons ((decodes_text field.name).map _) ?_
    refine .cons (decodes_customFieldType _ field.type) ?_
    refine .cons ((decodes_text field.textValue).map _) ?_
    refine .cons ((decodes_uint field.dateValueMs).map _) ?_
    refine .cons ((decodes_text field.binaryRef).map _) ?_
    exact links_unknown keepsUnknown_customField _ ok.unknown.foreign ok.unknown.items (few_from_none ok.unknown.few)
  exact (decodes_fields links (fields_small ok.unknown.few (by simp))).map _

structure AttachmentRefOk {Text : Type} (ref : AttachmentRefOf Text) : Prop where
  unknown : UnknownFieldsOk 1 ref.unknownFields

def attachmentRefSlot : Slot (AttachmentRefOf (Option CStr)) UnknownField where
  get ref := ref.unknownFields
  put unknownFields ref := { ref with unknownFields }
  get_put _ _ := rfl
  put_get _ := rfl
  put_put _ _ _ := rfl

theorem keepsUnknown_attachmentRef : KeepsUnknown decodeAttachmentRefField attachmentRefSlot 1 := by
  intro key ref foreign
  unfold decodeAttachmentRefField
  split <;> first | omega | rfl

def attachmentRefDraft (ref : AttachmentRef) : AttachmentRefOf (Option CStr) :=
  { ref with attachmentId := some ref.attachmentId }

theorem decodes_attachmentRef {ref : AttachmentRef} (ok : AttachmentRefOk ref) :
    Decodes decodeAttachmentRef (attachmentRefTokens ref) ref := by
  have links : Links decodeAttachmentRefField attachmentRefZero (attachmentRefFields ref) (attachmentRefDraft ref) := by
    refine .cons ((decodes_text ref.attachmentId).map _) ?_
    exact links_unknown keepsUnknown_attachmentRef _ ok.unknown.foreign ok.unknown.items (few_from_none ok.unknown.few)
  exact (decodes_fields links (fields_small ok.unknown.few (by simp))).map _

structure HistoryRevisionOk {Text : Type} (revision : HistoryRevisionOf Text) : Prop where
  unknown : UnknownFieldsOk 14 revision.unknownFields
  tags : revision.tags.length ≤ maxTagsPerEntry

def historyRevisionSlot : Slot (HistoryRevisionOf (Option CStr)) UnknownField where
  get revision := revision.unknownFields
  put unknownFields revision := { revision with unknownFields }
  get_put _ _ := rfl
  put_get _ := rfl
  put_put _ _ _ := rfl

theorem keepsUnknown_historyRevision : KeepsUnknown decodeHistoryRevisionField historyRevisionSlot 14 := by
  intro key revision foreign
  unfold decodeHistoryRevisionField
  split <;> first | omega | rfl

def historyRevisionDraft (revision : HistoryRevision) : HistoryRevisionOf (Option CStr) :=
  { revision with
    source := some revision.source
    actor := some revision.actor
    id := some revision.id
    title := some revision.title
    username := some revision.username
    password := some revision.password
    url := some revision.url
    notes := some revision.notes
    groupId := some revision.groupId }

theorem decodes_historyRevision {revision : HistoryRevision} (ok : HistoryRevisionOk revision) :
    Decodes decodeHistoryRevision (historyRevisionTokens revision) revision := by
  have tags : Decodes (decodeList maxTagsPerEntry decodeTextItem) (listTokens textTokens revision.tags) revision.tags :=
    decodes_list (fun tag _ => decodes_textItem tag) ok.tags (by decide)
  have links : Links decodeHistoryRevisionField historyRevisionZero (historyRevisionFields revision)
      (historyRevisionDraft revision) := by
    refine .cons ((decodes_uint revision.revisionTsMs).map _) ?_
    refine .cons ((decodes_text revision.source).map _) ?_
    refine .cons ((decodes_text revision.actor).map _) ?_
    refine .cons ((decodes_text revision.id).map _) ?_
    refine .cons ((decodes_text revision.title).map _) ?_
    refine .cons ((decodes_text revision.username).map _) ?_
    refine .cons ((decodes_text revision.password).map _) ?_
    refine .cons ((decodes_text revision.url).map _) ?_
    refine .cons ((decodes_text revision.notes).map _) ?_
    refine .cons ((decodes_text revision.groupId).map _) ?_
    refine .cons (tags.map _) ?_
    refine .cons ((decodes_uint revision.createdAtMs).map _) ?_
    refine .cons ((decodes_uint revision.updatedAtMs).map _) ?_
    refine .cons ((decodes_bool revision.favorite).map _) ?_
    exact links_unknown keepsUnknown_historyRevision _ ok.unknown.foreign ok.unknown.items (few_from_none ok.unknown.few)
  exact (decodes_fields links (fields_small ok.unknown.few (by simp))).map _

structure AttachmentPartsOk {Text : Type} (attachment : AttachmentOf Text) : Prop where
  unknown : UnknownFieldsOk 6 attachment.unknownFields
  blob : attachment.blob.length < 2 ^ 64

structure AttachmentOk (attachment : Attachment) : Prop extends AttachmentPartsOk attachment where
  sized : attachment.size = 0 → UInt64.ofNat attachment.blob.length = 0

def attachmentSlot : Slot (AttachmentOf (Option CStr)) UnknownField where
  get attachment := attachment.unknownFields
  put unknownFields attachment := { attachment with unknownFields }
  get_put _ _ := rfl
  put_get _ := rfl
  put_put _ _ _ := rfl

theorem keepsUnknown_attachment : KeepsUnknown decodeAttachmentField attachmentSlot 6 := by
  intro key attachment foreign
  unfold decodeAttachmentField
  split <;> first | omega | rfl

def attachmentDraft (attachment : Attachment) : AttachmentOf (Option CStr) :=
  { attachment with
    id := some attachment.id
    name := some attachment.name
    mime := some attachment.mime }

theorem attachmentSizeValue_eq {attachment : Attachment} (ok : AttachmentOk attachment) :
    attachmentSizeValue attachment = attachment.size := by
  unfold attachmentSizeValue
  split
  · rfl
  next none =>
    have zero : attachment.size = 0 := by simpa using none
    rw [ok.sized zero, zero]

private theorem decodes_sha256 (digest : Option (Buf 32)) :
    Decodes (decodeSha256 none) [.bstr (sha256Bytes digest)] digest where
  solid := .one (by simp)
  reads := by
    have small : (sha256Bytes digest).length < 2 ^ 64 := by
      cases digest with
      | none => simp [sha256Bytes]
      | some digest => simp [sha256Bytes]
    refine (reads_bstrValue _ small).andThen ?_
    cases digest with
    | none => exact .pure _
    | some digest =>
      have whole : (sha256Bytes (some digest)).length = 32 := digest.length_bytes
      rw [dif_pos whole]
      exact .pure _

private theorem decodes_blob {blob : Bytes} (small : blob.length < 2 ^ 64) :
    Decodes (decodeBlob []) [.bstr blob] blob where
  solid := .one (by simp)
  reads := (reads_bstrValue blob small).andThen (.pure _)

theorem decodes_attachment {attachment : Attachment} (ok : AttachmentOk attachment) :
    Decodes decodeAttachment (attachmentTokens attachment) attachment := by
  have size := decodes_uint (attachmentSizeValue attachment)
  rw [attachmentSizeValue_eq ok] at size
  have links : Links decodeAttachmentField attachmentZero (attachmentFields attachment) (attachmentDraft attachment) := by
    refine .cons ((decodes_text attachment.id).map _) ?_
    refine .cons ((decodes_text attachment.name).map _) ?_
    refine .cons ((decodes_text attachment.mime).map _) ?_
    rw [attachmentSizeValue_eq ok]
    refine .cons (size.map _) ?_
    refine .cons ((decodes_sha256 attachment.sha256).map _) ?_
    refine .cons ((decodes_blob ok.blob).map _) ?_
    exact links_unknown keepsUnknown_attachment _ ok.unknown.foreign ok.unknown.items (few_from_none ok.unknown.few)
  have read : Decodes decodeAttachment (attachmentTokens attachment)
      { attachment with
        size := if attachment.size = 0 then UInt64.ofNat attachment.blob.length else attachment.size } :=
    (decodes_fields links (fields_small ok.unknown.few (by simp))).map _
  have kept : (if attachment.size = 0 then UInt64.ofNat attachment.blob.length else attachment.size) =
      attachment.size := by
    split
    next zero => rw [ok.sized zero, zero]
    · rfl
  rw [kept] at read
  exact read

/-- Raw data of a record that is either absent or one complete item. -/
def RawOk (data : Bytes) : Prop := data = [] ∨ RawItem data

structure GroupOk {Text : Type} (group : GroupOf Text) : Prop where
  unknown : UnknownFieldsOk 10 group.unknownFields
  customData : RawOk group.customDataCbor

def groupSlot : Slot (GroupOf (Option CStr)) UnknownField where
  get group := group.unknownFields
  put unknownFields group := { group with unknownFields }
  get_put _ _ := rfl
  put_get _ := rfl
  put_put _ _ _ := rfl

theorem keepsUnknown_group : KeepsUnknown decodeGroupField groupSlot 10 := by
  intro key group foreign
  unfold decodeGroupField
  split <;> first | omega | rfl

def groupDraft (group : Group) : GroupOf (Option CStr) :=
  { group with
    id := some group.id
    parentId := some group.parentId
    title := some group.title
    iconId := some group.iconId
    color := some group.color
    notes := some group.notes }

/-- An absent raw field is not written, so the record keeps its empty one. -/
theorem links_raw {α : Type} {field : UInt64 → α → Read α} {key : UInt64} (put : Bytes → α → α) {record : α}
    {data : Bytes} (ok : RawOk data) (absent : put [] record = record)
    (reader : field key record = captureNextItem >>= fun data => pure (put data record)) :
    Links field record (rawField key data) (put data record) := by
  rcases ok with rfl | item
  · rw [absent]
    exact .nil record
  · have step := (decodes_capture item).map fun data => put data record
    rw [← reader] at step
    rw [rawField, if_pos (List.length_pos_iff.mpr item.ne_nil)]
    exact .cons step (.nil _)

theorem rawField_le (key : UInt64) (data : Bytes) : (rawField key data).length ≤ 1 := by
  unfold rawField
  split
  · simp
  · simp

theorem decodes_group {group : Group} (ok : GroupOk group) : Decodes decodeGroup (groupTokens group) group := by
  have links : Links decodeGroupField groupZero (groupFields group) (groupDraft group) := by
    refine .cons ((decodes_text group.id).map _) ?_
    refine .cons ((decodes_text group.parentId).map _) ?_
    refine .cons ((decodes_text group.title).map _) ?_
    refine .cons ((decodes_text group.iconId).map _) ?_
    refine .cons ((decodes_text group.color).map _) ?_
    refine .cons ((decodes_text group.notes).map _) ?_
    refine .cons ((decodes_uint group.createdAtMs).map _) ?_
    refine .cons ((decodes_uint group.updatedAtMs).map _) ?_
    refine .cons ((decodes_uint group.accessedAtMs).map _) ?_
    refine (links_raw (fun customDataCbor group => { group with customDataCbor }) ok.customData rfl rfl).append ?_
    exact links_unknown keepsUnknown_group _ ok.unknown.foreign ok.unknown.items (few_from_none ok.unknown.few)
  have small : (groupFields group).length < 2 ^ 64 := by
    have raw := rawField_le 10 group.customDataCbor
    rw [groupFields, ← List.append_assoc]
    exact fields_small ok.unknown.few (by simp; omega)
  exact (decodes_fields links small).map _

structure RecycleBinOk {Text : Type} (bin : RecycleBinOf Text) : Prop where
  unknown : UnknownFieldsOk 3 bin.unknownFields

def recycleBinSlot : Slot (RecycleBinOf (Option CStr)) UnknownField where
  get bin := bin.unknownFields
  put unknownFields bin := { bin with unknownFields }
  get_put _ _ := rfl
  put_get _ := rfl
  put_put _ _ _ := rfl

theorem keepsUnknown_recycleBin : KeepsUnknown decodeRecycleBinField recycleBinSlot 3 := by
  intro key bin foreign
  unfold decodeRecycleBinField
  split <;> first | omega | rfl

def recycleBinDraft (bin : RecycleBin) : RecycleBinOf (Option CStr) := { bin with groupId := some bin.groupId }

private theorem decodes_retentionDays (days : UInt32) : Decodes decodeRetentionDays [.uint days.toUInt64] days where
  solid := .one (by simp)
  reads := by
    refine (decodes_uint days.toUInt64).reads.andThen ?_
    have bound := days.toNat_lt
    have within : ¬days.toUInt64 > 0xFFFFFFFF := by
      rw [gt_iff_lt, UInt64.lt_iff_toNat_lt, UInt32.toNat_toUInt64]
      have limit : (0xFFFFFFFF : UInt64).toNat = 0xFFFFFFFF := rfl
      omega
    rw [if_neg within, UInt32.toUInt32_toUInt64]
    exact .pure _

theorem decodes_recycleBin {bin : RecycleBin} (ok : RecycleBinOk bin) :
    Decodes decodeRecycleBin (recycleBinTokens bin) bin := by
  have links : Links decodeRecycleBinField recycleBinZero (recycleBinFields bin) (recycleBinDraft bin) := by
    refine .cons ((decodes_bool bin.enabled).map _) ?_
    refine .cons ((decodes_text bin.groupId).map _) ?_
    refine .cons ((decodes_retentionDays bin.retentionDays).map _) ?_
    exact links_unknown keepsUnknown_recycleBin _ ok.unknown.foreign ok.unknown.items (few_from_none ok.unknown.few)
  exact (decodes_fields links (fields_small ok.unknown.few (by simp))).map _

structure EntryPartsOk {Text : Type} (entry : EntryOf Text) : Prop where
  unknown : UnknownFieldsOk 20 entry.unknownFields
  tags : entry.tags.length ≤ maxTagsPerEntry
  urls : entry.urls.length ≤ maxUrlsPerEntry
  fewCustomFields : entry.customFields.length ≤ maxCustomFieldsPerEntry
  customFields : ∀ field ∈ entry.customFields, CustomFieldOk field
  fewAttachmentRefs : entry.attachmentRefs.length ≤ maxAttachmentRefsPerEntry
  attachmentRefs : ∀ ref ∈ entry.attachmentRefs, AttachmentRefOk ref
  fewRevisions : entry.history.length ≤ maxHistoryPerEntry
  history : ∀ revision ∈ entry.history, HistoryRevisionOk revision

structure EntryOk (entry : Entry) : Prop extends EntryPartsOk entry where
  primary : entry.url = entry.urls.headD .empty

def entrySlot : Slot (EntryOf (Option CStr)) UnknownField where
  get entry := entry.unknownFields
  put unknownFields entry := { entry with unknownFields }
  get_put _ _ := rfl
  put_get _ := rfl
  put_put _ _ _ := rfl

theorem keepsUnknown_entry : KeepsUnknown decodeEntryField entrySlot 20 := by
  intro key entry foreign
  unfold decodeEntryField
  split <;> first | omega | rfl

def entryDraft (entry : Entry) : EntryOf (Option CStr) :=
  { entry with
    id := some entry.id
    title := some entry.title
    username := some entry.username
    password := some entry.password
    url := some (entry.urls.headD entry.url)
    notes := some entry.notes
    groupId := some entry.groupId
    colorLabel := some entry.colorLabel }

private theorem decodes_expiryWarnDays (days : UInt16) : Decodes decodeExpiryWarnDays [.uint days.toUInt64] days where
  solid := .one (by simp)
  reads := by
    refine (decodes_uint days.toUInt64).reads.andThen ?_
    have bound := days.toNat_lt
    have within : ¬days.toUInt64 > 0xFFFF := by
      rw [gt_iff_lt, UInt64.lt_iff_toNat_lt, UInt16.toNat_toUInt64]
      have limit : (0xFFFF : UInt64).toNat = 0xFFFF := rfl
      omega
    rw [if_neg within, UInt16.toUInt16_toUInt64]
    exact .pure _

/-- An entry whose url follows its list is left alone by the alias rule. -/
theorem ensureUrlAlias_ok {entry : Entry} (ok : EntryOk entry) :
    ensureUrlAlias (some (entry.urls.headD entry.url)) entry.urls = (entry.url, entry.urls) := by
  have primary := ok.primary
  cases urls : entry.urls with
  | nil =>
    rw [urls] at primary
    simp only [List.headD_nil] at primary
    simp [ensureUrlAlias, primary]
  | cons first rest =>
    rw [urls] at primary
    simp [ensureUrlAlias, primary]

theorem decodes_entry {entry : Entry} (ok : EntryOk entry) : Decodes decodeEntry (entryTokens entry) entry := by
  have customFields := decodes_list (fun field member => decodes_customField (ok.customFields field member))
    ok.fewCustomFields (by decide)
  have attachmentRefs := decodes_list (fun ref member => decodes_attachmentRef (ok.attachmentRefs ref member))
    ok.fewAttachmentRefs (by decide)
  have history := decodes_list (fun revision member => decodes_historyRevision (ok.history revision member))
    ok.fewRevisions (by decide)
  have links : Links decodeEntryField entryZero (entryFields entry) (entryDraft entry) := by
    refine .cons ((decodes_text entry.id).map _) ?_
    refine .cons ((decodes_text entry.title).map _) ?_
    refine .cons ((decodes_text entry.username).map _) ?_
    refine .cons ((decodes_text entry.password).map _) ?_
    refine .cons ((decodes_text (entry.urls.headD entry.url)).map _) ?_
    refine .cons ((decodes_text entry.notes).map _) ?_
    refine .cons ((decodes_texts ok.tags (by decide)).map _) ?_
    refine .cons ((decodes_text entry.groupId).map _) ?_
    refine .cons ((decodes_uint entry.createdAtMs).map _) ?_
    refine .cons ((decodes_uint entry.updatedAtMs).map _) ?_
    refine .cons ((decodes_bool entry.favorite).map _) ?_
    refine .cons ((decodes_uint entry.accessedAtMs).map _) ?_
    refine .cons ((decodes_text entry.colorLabel).map _) ?_
    refine .cons ((decodes_uint entry.expiryAtMs).map _) ?_
    refine .cons ((decodes_expiryWarnDays entry.expiryWarnDays).map _) ?_
    refine .cons (customFields.map _) ?_
    refine .cons (attachmentRefs.map _) ?_
    refine .cons (history.map _) ?_
    refine .cons ((decodes_bool entry.requiresFreshBiometric).map _) ?_
    refine .cons ((decodes_texts ok.urls (by decide)).map _) ?_
    exact links_unknown keepsUnknown_entry _ ok.unknown.foreign ok.unknown.items (few_from_none ok.unknown.few)
  have fields := decodes_fields links (fields_small ok.unknown.few (by simp))
  refine ⟨fields.solid, fields.reads.andThen ?_⟩
  simp only [entryDraft, ensureUrlAlias_ok ok, textOrEmpty, Option.getD_some]
  exact .pure _

end Hiya.Pm
