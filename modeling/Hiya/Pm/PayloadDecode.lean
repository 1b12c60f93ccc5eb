import Hiya.Cbor.Decoder
import Hiya.Pm.Payload

/-! The CBOR reader of `pm_payload.c`. Every record is read key by key in the order
of the input; a key the record does not know is kept as raw CBOR. -/

namespace Hiya.Pm
open Library Cbor

abbrev Read := Proc Decoder PmError

/-- The bytes of the next item, whatever it is. -/
def captureNextItem : Read Bytes := do
  let start := (← Proc.get).offset
  skip.orFail .deserialize
  let dec ← Proc.get
  if dec.offset ≤ start ∨ dec.offset > dec.data.length then Proc.fail .deserialize
  else pure ((dec.data.drop start).take (dec.offset - start))

def unknownFieldsAppend (fields : List UnknownField) (key : UInt64) (valueCbor : Bytes) :
    Except PmError (List UnknownField) :=
  if valueCbor = [] then .error .invalidParam
  else if fields.length ≥ maxUnknownFields then .error .format
  else .ok (fields ++ [UnknownField.mk key valueCbor])

def lift {α : Type} (outcome : Except PmError α) : Read α :=
  match outcome with
  | .ok value => pure value
  | .error problem => Proc.fail problem

def decodeUnknownField (key : UInt64) (fields : List UnknownField) : Read (List UnknownField) := do
  let raw ← captureNextItem
  lift (unknownFieldsAppend fields key raw)

def decodeUintValue : Read UInt64 := decodeUint.orFail .deserialize

def decodeBoolValue : Read Bool := decodeBool.orFail .deserialize

def dupText (data : Bytes) : Read CStr :=
  match dupBytesAsCstr data with
  | some text => pure text
  | none => Proc.fail .nomem

/-- Read a string into a slot that may be filled only once. -/
def decodeTextInto (slot : Option CStr) : Read (Option CStr) := do
  let data ← decodeTstr.orFail .deserialize
  if slot.isSome then Proc.fail .format
  else do pure (some (← dupText data))

def decodeTextItem : Read CStr := do
  let data ← decodeTstr.orFail .deserialize
  dupText data

def decodeCount (limit : Nat) : Read Nat := do
  let count ← decodeArray.orFail .deserialize
  if count > limit then Proc.fail .deserialize else pure count

def decodeItems {α : Type} (item : Read α) (count : Nat) : Read (List α) :=
  Proc.repeatWith count (fun items => do pure (items ++ [← item])) []

def decodeList {α : Type} (limit : Nat) (item : Read α) : Read (List α) := do
  decodeItems item (← decodeCount limit)

/-- Like `decodeList`, for a list that may not be filled twice. -/
def decodeListInto (limit : Nat) (items : List CStr) : Read (List CStr) := do
  let count ← decodeCount limit
  if items ≠ [] then Proc.fail .format else decodeItems decodeTextItem count

/-- Read the pairs of a map, each value by the reader its key selects. -/
def decodeFields {α : Type} (field : UInt64 → α → Read α) (start : α) : Read α := do
  let count ← decodeMap.orFail .deserialize
  Proc.repeatWith count (fun record => do field (← decodeUintValue) record) start

def textOrEmpty (slot : Option CStr) : CStr := slot.getD .empty

def decodeCustomFieldField (key : UInt64) (field : CustomFieldOf (Option CStr)) :
    Read (CustomFieldOf (Option CStr)) :=
  match key.toNat with
  | 1 => do pure { field with name := ← decodeTextInto field.name }
  | 2 => do
    match CustomFieldType.ofCode? (← decodeUintValue) with
    | some type => pure { field with type }
    | none => Proc.fail .deserialize
  | 3 => do pure { field with textValue := ← decodeTextInto field.textValue }
  | 4 => do pure { field with dateValueMs := ← decodeUintValue }
  | 5 => do pure { field with binaryRef := ← decodeTextInto field.binaryRef }
  | _ => do pure { field with unknownFields := ← decodeUnknownField key field.unknownFields }

def customFieldZero : CustomFieldOf (Option CStr) where
  name := none
  type := .text
  textValue := none
  dateValueMs := 0
  binaryRef := none
  unknownFields := []

def decodeCustomField : Read CustomField := do
  let field ← decodeFields decodeCustomFieldField customFieldZero
  pure { field with
    name := textOrEmpty field.name
    textValue := textOrEmpty field.textValue
    binaryRef := textOrEmpty field.binaryRef }

def decodeAttachmentRefField (key : UInt64) (ref : AttachmentRefOf (Option CStr)) :
    Read (AttachmentRefOf (Option CStr)) :=
  match key.toNat with
  | 1 => do pure { ref with attachmentId := ← decodeTextInto ref.attachmentId }
  | _ => do pure { ref with unknownFields := ← decodeUnknownField key ref.unknownFields }

def attachmentRefZero : AttachmentRefOf (Option CStr) := { attachmentId := none, unknownFields := [] }

def decodeAttachmentRef : Read AttachmentRef := do
  let ref ← decodeFields decodeAttachmentRefField attachmentRefZero
  pure { ref with attachmentId := textOrEmpty ref.attachmentId }

def decodeHistoryRevisionField (key : UInt64) (revision : HistoryRevisionOf (Option CStr)) :
    Read (HistoryRevisionOf (Option CStr)) :=
  match key.toNat with
  | 1 => do pure { revision with revisionTsMs := ← decodeUintValue }
  | 2 => do pure { revision with source := ← decodeTextInto revision.source }
  | 3 => do pure { revision with actor := ← decodeTextInto revision.actor }
  | 4 => do pure { revision with title := ← decodeTextInto revision.title }
  | 5 => do pure { revision with username := ← decodeTextInto revision.username }
  | 6 => do pure { revision with password := ← decodeTextInto revision.password }
  | 7 => do pure { revision with notes := ← decodeTextInto revision.notes }
  | 8 => do pure { revision with id := ← decodeTextInto revision.id }
  | 9 => do pure { revision with url := ← decodeTextInto revision.url }
  | 10 => do pure { revision with groupId := ← decodeTextInto revision.groupId }
  | 11 => do pure { revision with tags := ← decodeList maxTagsPerEntry decodeTextItem }
  | 12 => do pure { revision with createdAtMs := ← decodeUintValue }
  | 13 => do pure { revision with updatedAtMs := ← decodeUintValue }
  | 14 => do pure { revision with favorite := ← decodeBoolValue }
  | _ => do pure { revision with unknownFields := ← decodeUnknownField key revision.unknownFields }

def historyRevisionZero : HistoryRevisionOf (Option CStr) where
  revisionTsMs := 0
  source := none
  actor := none
  id := none
  title := none
  username := none
  password := none
  url := none
  notes := none
  groupId := none
  tags := []
  createdAtMs := 0
  updatedAtMs := 0
  favorite := false
  unknownFields := []

def decodeHistoryRevision : Read HistoryRevision := do
  let revision ← decodeFields decodeHistoryRevisionField historyRevisionZero
  pure { revision with
    source := textOrEmpty revision.source
    actor := textOrEmpty revision.actor
    id := textOrEmpty revision.id
    title := textOrEmpty revision.title
    username := textOrEmpty revision.username
    password := textOrEmpty revision.password
    url := textOrEmpty revision.url
    notes := textOrEmpty revision.notes
    groupId := textOrEmpty revision.groupId }

/-- An empty digest is accepted and leaves the stored one alone. -/
def decodeSha256 (digest : Option (Buf 32)) : Read (Option (Buf 32)) := do
  let data ← decodeBstr.orFail .deserialize
  if exact : data.length = 32 then pure (some (.ofBytes data exact))
  else if data.length ≠ 0 then Proc.fail .format
  else pure digest

def decodeBlob (blob : Bytes) : Read Bytes := do
  let data ← decodeBstr.orFail .deserialize
  if blob ≠ [] then Proc.fail .format else pure data

def decodeAttachmentField (key : UInt64) (attachment : AttachmentOf (Option CStr)) :
    Read (AttachmentOf (Option CStr)) :=
  match key.toNat with
  | 1 => do pure { attachment with id := ← decodeTextInto attachment.id }
  | 2 => do pure { attachment with name := ← decodeTextInto attachment.name }
  | 3 => do pure { attachment with mime := ← decodeTextInto attachment.mime }
  | 4 => do pure { attachment with size := ← decodeUintValue }
  | 5 => do pure { attachment with sha256 := ← decodeSha256 attachment.sha256 }
  | 6 => do pure { attachment with blob := ← decodeBlob attachment.blob }
  | _ => do pure { attachment with unknownFields := ← decodeUnknownField key attachment.unknownFields }

def attachmentZero : AttachmentOf (Option CStr) where
  id := none
  name := none
  mime := none
  size := 0
  sha256 := none
  blob := []
  unknownFields := []

def decodeAttachment : Read Attachment := do
  let attachment ← decodeFields decodeAttachmentField attachmentZero
  pure { attachment with
    id := textOrEmpty attachment.id
    name := textOrEmpty attachment.name
    mime := textOrEmpty attachment.mime
    size := if attachment.size = 0 then UInt64.ofNat attachment.blob.length else attachment.size }

def decodeExpiryWarnDays : Read UInt16 := do
  let value ← decodeUintValue
  if value > 0xFFFF then Proc.fail .deserialize else pure value.toUInt16

def decodeEntryField (key : UInt64) (entry : EntryOf (Option CStr)) : Read (EntryOf (Option CStr)) :=
  match key.toNat with
  | 1 => do pure { entry with id := ← decodeTextInto entry.id }
  | 2 => do pure { entry with title := ← decodeTextInto entry.title }
  | 3 => do pure { entry with username := ← decodeTextInto entry.username }
  | 4 => do pure { entry with password := ← decodeTextInto entry.password }
  | 5 => do pure { entry with url := ← decodeTextInto entry.url }
  | 6 => do pure { entry with notes := ← decodeTextInto entry.notes }
  | 7 => do pure { entry with tags := ← decodeListInto maxTagsPerEntry entry.tags }
  | 8 => do pure { entry with groupId := ← decodeTextInto entry.groupId }
  | 9 => do pure { entry with createdAtMs := ← decodeUintValue }
  | 10 => do pure { entry with updatedAtMs := ← decodeUintValue }
  | 11 => do pure { entry with favorite := ← decodeBoolValue }
  | 12 => do pure { entry with accessedAtMs := ← decodeUintValue }
  | 13 => do pure { entry with colorLabel := ← decodeTextInto entry.colorLabel }
  | 14 => do pure { entry with expiryAtMs := ← decodeUintValue }
  | 15 => do pure { entry with expiryWarnDays := ← decodeExpiryWarnDays }
  | 16 => do pure { entry with customFields := ← decodeList maxCustomFieldsPerEntry decodeCustomField }
  | 17 => do pure { entry with attachmentRefs := ← decodeList maxAttachmentRefsPerEntry decodeAttachmentRef }
  | 18 => do pure { entry with history := ← decodeList maxHistoryPerEntry decodeHistoryRevision }
  | 19 => do pure { entry with requiresFreshBiometric := ← decodeBoolValue }
  | 20 => do pure { entry with urls := ← decodeListInto maxUrlsPerEntry entry.urls }
  | _ => do pure { entry with unknownFields := ← decodeUnknownField key entry.unknownFields }

def entryZero : EntryOf (Option CStr) where
  id := none
  title := none
  username := none
  password := none
  url := none
  urls := []
  notes := none
  groupId := none
  tags := []
  createdAtMs := 0
  updatedAtMs := 0
  accessedAtMs := 0
  favorite := false
  colorLabel := none
  expiryAtMs := 0
  expiryWarnDays := 0
  requiresFreshBiometric := false
  customFields := []
  attachmentRefs := []
  history := []
  unknownFields := []

def decodeEntry : Read Entry := do
  let entry ← decodeFields decodeEntryField entryZero
  let (url, urls) := ensureUrlAlias entry.url entry.urls
  pure { entry with
    id := textOrEmpty entry.id
    title := textOrEmpty entry.title
    username := textOrEmpty entry.username
    password := textOrEmpty entry.password
    url
    urls
    notes := textOrEmpty entry.notes
    groupId := textOrEmpty entry.groupId
    colorLabel := textOrEmpty entry.colorLabel }

def decodeGroupField (key : UInt64) (group : GroupOf (Option CStr)) : Read (GroupOf (Option CStr)) :=
  match key.toNat with
  | 1 => do pure { group with id := ← decodeTextInto group.id }
  | 2 => do pure { group with parentId := ← decodeTextInto group.parentId }
  | 3 => do pure { group with title := ← decodeTextInto group.title }
  | 4 => do pure { group with iconId := ← decodeTextInto group.iconId }
  | 5 => do pure { group with color := ← decodeTextInto group.color }
  | 6 => do pure { group with notes := ← decodeTextInto group.notes }
  | 7 => do pure { group with createdAtMs := ← decodeUintValue }
  | 8 => do pure { group with updatedAtMs := ← decodeUintValue }
  | 9 => do pure { group with accessedAtMs := ← decodeUintValue }
  | 10 => do pure { group with customDataCbor := ← captureNextItem }
  | _ => do pure { group with unknownFields := ← decodeUnknownField key group.unknownFields }

def groupZero : GroupOf (Option CStr) where
  id := none
  parentId := none
  title := none
  iconId := none
  color := none
  notes := none
  createdAtMs := 0
  updatedAtMs := 0
  accessedAtMs := 0
  customDataCbor := []
  unknownFields := []

def decodeGroup : Read Group := do
  let group ← decodeFields decodeGroupField groupZero
  pure { group with
    id := textOrEmpty group.id
    parentId := textOrEmpty group.parentId
    title := textOrEmpty group.title
    iconId := textOrEmpty group.iconId
    color := textOrEmpty group.color
    notes := textOrEmpty group.notes }

def decodeRetentionDays : Read UInt32 := do
  let value ← decodeUintValue
  if value > 0xFFFFFFFF then Proc.fail .deserialize else pure value.toUInt32

def decodeRecycleBinField (key : UInt64) (bin : RecycleBinOf (Option CStr)) : Read (RecycleBinOf (Option CStr)) :=
  match key.toNat with
  | 1 => do pure { bin with enabled := ← decodeBoolValue }
  | 2 => do pure { bin with groupId := ← decodeTextInto bin.groupId }
  | 3 => do pure { bin with retentionDays := ← decodeRetentionDays }
  | _ => do pure { bin with unknownFields := ← decodeUnknownField key bin.unknownFields }

def recycleBinZero : RecycleBinOf (Option CStr) :=
  { enabled := false, groupId := none, retentionDays := 0, unknownFields := [] }

def decodeRecycleBin : Read RecycleBin := do
  let bin ← decodeFields decodeRecycleBinField recycleBinZero
  pure { bin with groupId := textOrEmpty bin.groupId }

/-- The payload under construction and which of the required keys were seen. -/
structure PayloadDraft where
  payload : Payload
  hasSchema : Bool
  hasCreated : Bool
  hasUpdated : Bool
  hasEntries : Bool

def payloadDraftInit : PayloadDraft where
  payload := payloadInit
  hasSchema := false
  hasCreated := false
  hasUpdated := false
  hasEntries := false

/-- Read items and append a copy of each to the payload. -/
def decodeAppending {α : Type} (limit : Nat) (item : Read α) (append : Payload → α → Except PmError Payload)
    (payload : Payload) : Read Payload := do
  let count ← decodeCount limit
  Proc.repeatWith count (fun payload => do lift (append payload (← item))) payload

def decodeSchemaVersion : Read UInt32 := do
  let value ← decodeUintValue
  if value ≠ schemaVersion.toUInt64 then Proc.fail .formatVersion else pure value.toUInt32

def decodeVaultUuid : Read (Buf 16) := do
  let data ← decodeBstr.orFail .deserialize
  if exact : data.length = 16 then pure (.ofBytes data exact) else Proc.fail .deserialize

def decodePayloadField (key : UInt64) (draft : PayloadDraft) : Read PayloadDraft :=
  let payload := draft.payload
  match key.toNat with
  | 1 => do pure { draft with payload := { payload with schemaVersion := ← decodeSchemaVersion }, hasSchema := true }
  | 2 => do pure { draft with payload := { payload with createdAtMs := ← decodeUintValue }, hasCreated := true }
  | 3 => do pure { draft with payload := { payload with updatedAtMs := ← decodeUintValue }, hasUpdated := true }
  | 4 => do
    pure { draft with payload := ← decodeAppending maxEntries decodeEntry payloadAppendEntry payload, hasEntries := true }
  | 5 => do pure { draft with payload := ← decodeAppending maxGroups decodeGroup payloadAppendGroup payload }
  | 6 => do pure { draft with payload := { payload with vaultUuid := some (← decodeVaultUuid) } }
  | 7 => do
    pure { draft with payload := ← decodeAppending maxAttachments decodeAttachment payloadAppendAttachment payload }
  | 8 => do pure { draft with payload := { payload with recycleBin := ← decodeRecycleBin } }
  | 9 => do pure { draft with payload := { payload with securityAuditCacheCbor := ← captureNextItem } }
  | _ => do
    pure { draft with
      payload := { payload with unknownFields := ← decodeUnknownField key payload.unknownFields } }

def decodePayload : Read Payload := do
  let draft ← decodeFields decodePayloadField payloadDraftInit
  if !draft.hasSchema || !draft.hasCreated || !draft.hasUpdated || !draft.hasEntries then Proc.fail .format
  else if !(← Proc.get).atEnd then Proc.fail .format
  else pure draft.payload

def payloadDecodeCbor (data : Bytes) : Except PmError Payload :=
  if data = [] then .error .invalidParam else (decodePayload (Decoder.init data)).1

end Hiya.Pm
