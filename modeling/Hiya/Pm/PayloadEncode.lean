import Hiya.Cbor.Encoder
import Hiya.Pm.Payload

/-! The CBOR writer of `pm_payload.c`. Each record is a map from small integer keys
to its fields, followed by the unknown fields kept as raw CBOR. -/

namespace Hiya.Pm
open Library Cbor

abbrev Write := Proc Encoder PmError

/-- A run of encoder calls of which any failure is reported as one error. -/
def serialize (calls : List (Encode Unit)) : Write Unit := (Proc.each id calls).orFail .serialize

/-- Copy one already encoded item. Unlike every other writer this one does not
count the item in its container. -/
def encodeRawCbor (data : Bytes) : Encode Unit := do
  let enc ← Proc.get
  if data = [] then Proc.fail .invalid
  else if data.length > enc.capacity - enc.buf.length then encFail .overflow
  else Proc.modify (Encoder.append data)

def encodeText (text : CStr) : Encode Unit := encodeTstr text.bytes

def encodeUnknownField (field : UnknownField) : Write Unit :=
  serialize [encodeUint field.key, encodeRawCbor field.valueCbor]

def encodeCustomField (field : CustomField) : Write Unit := do
  serialize [
    encodeMap (5 + field.unknownFields.length),
    encodeUint 1, encodeText field.name,
    encodeUint 2, encodeUint field.type.code,
    encodeUint 3, encodeText field.textValue,
    encodeUint 4, encodeUint field.dateValueMs,
    encodeUint 5, encodeText field.binaryRef]
  Proc.each encodeUnknownField field.unknownFields

def encodeAttachmentRef (ref : AttachmentRef) : Write Unit := do
  serialize [
    encodeMap (1 + ref.unknownFields.length),
    encodeUint 1, encodeText ref.attachmentId]
  Proc.each encodeUnknownField ref.unknownFields

/-- A failed check of the model is reported as a format error. -/
def checkModel (check : Except PmError Unit) : Write Unit :=
  match check with
  | .ok _ => pure ()
  | .error _ => Proc.fail .format

def encodeHistoryRevision (revision : HistoryRevision) : Write Unit := do
  checkModel (validateHistoryRevisionModel revision)
  serialize [
    encodeMap (14 + revision.unknownFields.length),
    encodeUint 1, encodeUint revision.revisionTsMs,
    encodeUint 2, encodeText revision.source,
    encodeUint 3, encodeText revision.actor,
    encodeUint 8, encodeText revision.id,
    encodeUint 4, encodeText revision.title,
    encodeUint 5, encodeText revision.username,
    encodeUint 6, encodeText revision.password,
    encodeUint 9, encodeText revision.url,
    encodeUint 7, encodeText revision.notes,
    encodeUint 10, encodeText revision.groupId,
    encodeUint 11, encodeArray revision.tags.length]
  Proc.each (fun tag => serialize [encodeText tag]) revision.tags
  serialize [
    encodeUint 12, encodeUint revision.createdAtMs,
    encodeUint 13, encodeUint revision.updatedAtMs,
    encodeUint 14, encodeBool revision.favorite]
  Proc.each encodeUnknownField revision.unknownFields

def attachmentSizeValue (attachment : Attachment) : UInt64 :=
  if attachment.size ≠ 0 then attachment.size else UInt64.ofNat attachment.blob.length

def sha256Bytes (digest : Option (Buf 32)) : Bytes :=
  match digest with
  | some digest => digest.bytes
  | none => []

def encodeAttachment (attachment : Attachment) : Write Unit := do
  serialize [
    encodeMap (6 + attachment.unknownFields.length),
    encodeUint 1, encodeText attachment.id,
    encodeUint 2, encodeText attachment.name,
    encodeUint 3, encodeText attachment.mime,
    encodeUint 4, encodeUint (attachmentSizeValue attachment),
    encodeUint 5, encodeBstr (sha256Bytes attachment.sha256),
    encodeUint 6, encodeBstr attachment.blob]
  Proc.each encodeUnknownField attachment.unknownFields

def encodeEntry (entry : Entry) : Write Unit := do
  checkModel (validateEntryModel entry)
  let legacyUrl := entry.urls.headD entry.url
  serialize [
    encodeMap (20 + entry.unknownFields.length),
    encodeUint 1, encodeText entry.id,
    encodeUint 2, encodeText entry.title,
    encodeUint 3, encodeText entry.username,
    encodeUint 4, encodeText entry.password,
    encodeUint 5, encodeText legacyUrl,
    encodeUint 6, encodeText entry.notes,
    encodeUint 7, encodeArray entry.tags.length]
  Proc.each (fun tag => serialize [encodeText tag]) entry.tags
  serialize [
    encodeUint 8, encodeText entry.groupId,
    encodeUint 9, encodeUint entry.createdAtMs,
    encodeUint 10, encodeUint entry.updatedAtMs,
    encodeUint 11, encodeBool entry.favorite,
    encodeUint 12, encodeUint entry.accessedAtMs,
    encodeUint 13, encodeText entry.colorLabel,
    encodeUint 14, encodeUint entry.expiryAtMs,
    encodeUint 15, encodeUint entry.expiryWarnDays.toUInt64,
    encodeUint 16, encodeArray entry.customFields.length]
  Proc.each encodeCustomField entry.customFields
  serialize [encodeUint 17, encodeArray entry.attachmentRefs.length]
  Proc.each encodeAttachmentRef entry.attachmentRefs
  serialize [encodeUint 18, encodeArray entry.history.length]
  Proc.each encodeHistoryRevision entry.history
  serialize [
    encodeUint 19, encodeBool entry.requiresFreshBiometric,
    encodeUint 20, encodeArray entry.urls.length]
  Proc.each (fun url => serialize [encodeText url]) entry.urls
  Proc.each encodeUnknownField entry.unknownFields

def encodeGroup (group : Group) : Write Unit := do
  let extra := if group.customDataCbor.length > 0 then 1 else 0
  serialize [
    encodeMap (9 + group.unknownFields.length + extra),
    encodeUint 1, encodeText group.id,
    encodeUint 2, encodeText group.parentId,
    encodeUint 3, encodeText group.title,
    encodeUint 4, encodeText group.iconId,
    encodeUint 5, encodeText group.color,
    encodeUint 6, encodeText group.notes,
    encodeUint 7, encodeUint group.createdAtMs,
    encodeUint 8, encodeUint group.updatedAtMs,
    encodeUint 9, encodeUint group.accessedAtMs]
  if group.customDataCbor.length > 0 then
    serialize [encodeUint 10, encodeRawCbor group.customDataCbor]
  Proc.each encodeUnknownField group.unknownFields

def encodeRecycleBin (bin : RecycleBin) : Write Unit := do
  serialize [
    encodeMap (3 + bin.unknownFields.length),
    encodeUint 1, encodeBool bin.enabled,
    encodeUint 2, encodeText bin.groupId,
    encodeUint 3, encodeUint bin.retentionDays.toUInt64]
  Proc.each encodeUnknownField bin.unknownFields

def checkEncoder : Write Unit := do
  if (← Proc.get).error then Proc.fail .serialize

def encodePayload (payload : Payload) : Write Unit := do
  checkModel (validatePayloadModel payload)
  let uuidField := if payload.vaultUuid.isSome then 1 else 0
  let auditField := if payload.securityAuditCacheCbor.length > 0 then 1 else 0
  serialize [
    encodeMap (7 + payload.unknownFields.length + uuidField + auditField),
    encodeUint 1, encodeUint payload.schemaVersion.toUInt64,
    encodeUint 2, encodeUint payload.createdAtMs,
    encodeUint 3, encodeUint payload.updatedAtMs,
    encodeUint 4, encodeArray payload.entries.length]
  Proc.each encodeEntry payload.entries
  serialize [encodeUint 5, encodeArray payload.groups.length]
  Proc.each encodeGroup payload.groups
  match payload.vaultUuid with
  | some uuid => serialize [encodeUint 6, encodeBstr uuid.bytes]
  | none => pure ()
  serialize [encodeUint 7, encodeArray payload.attachments.length]
  Proc.each encodeAttachment payload.attachments
  serialize [encodeUint 8]
  encodeRecycleBin payload.recycleBin
  if payload.securityAuditCacheCbor.length > 0 then
    serialize [encodeUint 9, encodeRawCbor payload.securityAuditCacheCbor]
  Proc.each encodeUnknownField payload.unknownFields
  checkEncoder

def encodePayloadInto (payload : Payload) (capacity : Nat) : Except PmError Bytes :=
  match encodePayload payload (Encoder.init capacity) with
  | (.ok _, enc) => .ok (enc.buf.take enc.len)
  | (.error problem, _) => .error problem

/-- Retry with twice the room while the failure is a serialization error. -/
def encodeAttempts (payload : Payload) : Nat → Nat → Except PmError Bytes
  | 0, _ => .error .serialize
  | attempts + 1, capacity =>
    match encodePayloadInto payload capacity with
    | .ok out => .ok out
    | .error .serialize => encodeAttempts payload attempts (capacity * 2)
    | .error problem => .error problem

def payloadEncodeCbor (payload : Payload) : Except PmError Bytes := encodeAttempts payload 20 4096

end Hiya.Pm
