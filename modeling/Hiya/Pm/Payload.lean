import Hiya.Library.Buf
import Mathlib.Data.List.TakeWhile

/-! The payload model of `pm_payload.h`: the records a vault holds, their limits,
their validation and the copies made when a record is added to a payload. -/

namespace Hiya.Pm
open Library

inductive PmError
  | invalidParam
  | nomem
  | io
  | notFound
  | alreadyExists
  | internal
  | unsupported
  | locked
  | denied
  | policy
  | state
  | format
  | formatMagic
  | formatVersion
  | formatIntegrity
  | serialize
  | deserialize
  | crypto
  | kdf
  | aeadTag
  | mlockFailed
  deriving DecidableEq, Repr

def sizeMax : Nat := 2 ^ 64 - 1
def schemaVersion : UInt32 := 1
def maxEntries : Nat := 4096
def maxGroups : Nat := 4096
def maxTagsPerEntry : Nat := 128
def maxUrlsPerEntry : Nat := 64
def maxCustomFieldsPerEntry : Nat := 128
def maxAttachmentRefsPerEntry : Nat := 128
def maxHistoryPerEntry : Nat := 50
def maxAttachments : Nat := 2048
def maxUnknownFields : Nat := 512

/-- A heap string: the bytes before its terminator. -/
structure CStr where
  bytes : Bytes
  clean : 0 ∉ bytes
  short : bytes.length < sizeMax

namespace CStr

theorem ext_bytes {first second : CStr} (same : first.bytes = second.bytes) : first = second := by
  cases first
  cases second
  simpa using same

instance : DecidableEq CStr := fun _ _ => decidable_of_iff _ ⟨ext_bytes, congrArg bytes⟩

def empty : CStr := ⟨[], CText.nil_clean, by decide⟩

instance : Inhabited CStr := ⟨empty⟩

end CStr

/-- Copy a slice and terminate it. A string ends at the first zero byte it holds. -/
def dupBytesAsCstr (data : Bytes) : Option CStr :=
  if small : data.length < sizeMax then
    some {
      bytes := data.takeWhile (· ≠ 0)
      clean := fun member => by simpa using List.mem_takeWhile_imp member
      short := Nat.lt_of_le_of_lt (List.takeWhile_prefix _).length_le small }
  else none

structure UnknownField where
  key : UInt64
  valueCbor : Bytes
  deriving DecidableEq

inductive CustomFieldType
  | text
  | hidden
  | totp
  | url
  | date
  | binaryRef
  deriving DecidableEq

namespace CustomFieldType

def code : CustomFieldType → UInt64
  | text => 0
  | hidden => 1
  | totp => 2
  | url => 3
  | date => 4
  | binaryRef => 5

def ofCode? (value : UInt64) : Option CustomFieldType :=
  match value.toNat with
  | 0 => some text
  | 1 => some hidden
  | 2 => some totp
  | 3 => some url
  | 4 => some date
  | 5 => some binaryRef
  | _ => none

end CustomFieldType

/-! While a record is decoded its strings may still be null pointers, so the
records take the type of their strings as a parameter. -/

structure CustomFieldOf (Text : Type) where
  name : Text
  type : CustomFieldType
  textValue : Text
  dateValueMs : UInt64
  binaryRef : Text
  unknownFields : List UnknownField
  deriving DecidableEq

structure AttachmentRefOf (Text : Type) where
  attachmentId : Text
  unknownFields : List UnknownField
  deriving DecidableEq

structure HistoryRevisionOf (Text : Type) where
  revisionTsMs : UInt64
  source : Text
  actor : Text
  id : Text
  title : Text
  username : Text
  password : Text
  url : Text
  notes : Text
  groupId : Text
  tags : List CStr
  createdAtMs : UInt64
  updatedAtMs : UInt64
  favorite : Bool
  unknownFields : List UnknownField
  deriving DecidableEq

structure AttachmentOf (Text : Type) where
  id : Text
  name : Text
  mime : Text
  size : UInt64
  sha256 : Option (Buf 32)
  blob : Bytes
  unknownFields : List UnknownField
  deriving DecidableEq

structure GroupOf (Text : Type) where
  id : Text
  parentId : Text
  title : Text
  iconId : Text
  color : Text
  notes : Text
  createdAtMs : UInt64
  updatedAtMs : UInt64
  accessedAtMs : UInt64
  customDataCbor : Bytes
  unknownFields : List UnknownField
  deriving DecidableEq

structure RecycleBinOf (Text : Type) where
  enabled : Bool
  groupId : Text
  retentionDays : UInt32
  unknownFields : List UnknownField
  deriving DecidableEq

abbrev CustomField := CustomFieldOf CStr
abbrev AttachmentRef := AttachmentRefOf CStr
abbrev HistoryRevision := HistoryRevisionOf CStr
abbrev Attachment := AttachmentOf CStr
abbrev Group := GroupOf CStr
abbrev RecycleBin := RecycleBinOf CStr

structure EntryOf (Text : Type) where
  id : Text
  title : Text
  username : Text
  password : Text
  url : Text
  urls : List CStr
  notes : Text
  groupId : Text
  tags : List CStr
  createdAtMs : UInt64
  updatedAtMs : UInt64
  accessedAtMs : UInt64
  favorite : Bool
  colorLabel : Text
  expiryAtMs : UInt64
  expiryWarnDays : UInt16
  requiresFreshBiometric : Bool
  customFields : List CustomField
  attachmentRefs : List AttachmentRef
  history : List HistoryRevision
  unknownFields : List UnknownField
  deriving DecidableEq

abbrev Entry := EntryOf CStr

/-- An empty byte list stands for an absent audit cache, as a zero length does. -/
structure Payload where
  schemaVersion : UInt32
  createdAtMs : UInt64
  updatedAtMs : UInt64
  vaultUuid : Option (Buf 16)
  groups : List Group
  entries : List Entry
  attachments : List Attachment
  recycleBin : RecycleBin
  securityAuditCacheCbor : Bytes
  unknownFields : List UnknownField
  deriving DecidableEq

/-- A zeroed recycle bin: its null group id reads as the empty string. -/
def recycleBinInit : RecycleBin :=
  { enabled := false, groupId := .empty, retentionDays := 0, unknownFields := [] }

def payloadInit : Payload where
  schemaVersion := schemaVersion
  createdAtMs := 0
  updatedAtMs := 0
  vaultUuid := none
  groups := []
  entries := []
  attachments := []
  recycleBin := recycleBinInit
  securityAuditCacheCbor := []
  unknownFields := []

def validateHistoryRevisionModel (revision : HistoryRevision) : Except PmError Unit :=
  if revision.tags.length > maxTagsPerEntry then .error .format else .ok ()

/-- Field types cannot be out of range here, so custom fields have nothing to check. -/
def validateEntryModel (entry : Entry) : Except PmError Unit :=
  if entry.tags.length > maxTagsPerEntry ∨ entry.urls.length > maxUrlsPerEntry ∨
      entry.customFields.length > maxCustomFieldsPerEntry ∨
      entry.attachmentRefs.length > maxAttachmentRefsPerEntry ∨
      entry.history.length > maxHistoryPerEntry then .error .format
  else entry.history.forM validateHistoryRevisionModel

def validatePayloadModel (payload : Payload) : Except PmError Unit :=
  if payload.schemaVersion ≠ schemaVersion ∨ payload.entries.length > maxEntries ∨
      payload.groups.length > maxGroups ∨ payload.attachments.length > maxAttachments then .error .format
  else payload.entries.forM validateEntryModel

/-- Keep the single url and the url list in step: the list wins, and a lone url
becomes a list of one. -/
def ensureUrlAlias (url : Option CStr) (urls : List CStr) : CStr × List CStr :=
  let url := url.getD (urls.headD .empty)
  let urls := if urls = [] ∧ url ≠ .empty then [url] else urls
  (urls.headD url, urls)

def ensureEntryUrlAlias (entry : Entry) : Entry :=
  let (url, urls) := ensureUrlAlias (some entry.url) entry.urls
  { entry with url, urls }

def entryClone (entry : Entry) : Except PmError Entry := do
  validateEntryModel entry
  -- the copied custom fields and revisions are validated once more by their own copies
  entry.history.forM validateHistoryRevisionModel
  pure (ensureEntryUrlAlias entry)

def attachmentClone (attachment : Attachment) : Attachment :=
  { attachment with
    size := if attachment.size ≠ 0 then attachment.size else UInt64.ofNat attachment.blob.length }

def payloadAppendGroup (payload : Payload) (group : Group) : Except PmError Payload :=
  if payload.groups.length ≥ maxGroups then .error .state
  else .ok { payload with groups := payload.groups ++ [group] }

def payloadAppendEntry (payload : Payload) (entry : Entry) : Except PmError Payload :=
  if payload.entries.length ≥ maxEntries then .error .state
  else do
    let copy ← entryClone entry
    pure { payload with entries := payload.entries ++ [copy] }

def payloadAppendAttachment (payload : Payload) (attachment : Attachment) : Except PmError Payload :=
  if payload.attachments.length ≥ maxAttachments then .error .state
  else .ok { payload with attachments := payload.attachments ++ [attachmentClone attachment] }

end Hiya.Pm
