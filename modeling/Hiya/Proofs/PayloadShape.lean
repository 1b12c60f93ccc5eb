import Hiya.Pm.PayloadEncode
import Hiya.Proofs.CborWrites

/-! The shape of an encoded payload: every record as the list of its fields in the
order they are written. On a payload that passes its own checks, each writer is the
emission of the tokens of that shape. -/

namespace Hiya.Pm
open Library Cbor

inductive Token
  | uint (value : UInt64)
  | bool (value : Bool)
  | text (value : CStr)
  | bstr (data : Bytes)
  | array (count : Nat)
  | map (count : Nat)
  | raw (data : Bytes)
  deriving DecidableEq

namespace Token

def emit : Token → Encode Unit
  | uint value => encodeUint value
  | bool value => encodeBool value
  | text value => encodeText value
  | bstr data => encodeBstr data
  | array count => encodeArray count
  | map count => encodeMap count
  | raw data => encodeRawCbor data

def bytes : Token → Bytes
  | uint value => headBytes .uint value.toNat
  | bool value => headBytes .simple (if value then trueValue else falseValue).toNat
  | text value => headBytes .tstr value.bytes.length ++ value.bytes
  | bstr data => headBytes .bstr data.length ++ data
  | array count => headBytes .array count
  | map count => headBytes .map count
  | raw data => data

def nest : Token → List Frame → Option (List Frame)
  | array count, stack => openContainer count count stack
  | map count, stack => openContainer count (count * 2) stack
  | raw _, stack => some stack
  | _, stack => some (trackItem stack)

end Token

def bytesOf (tokens : List Token) : Bytes := tokens.flatMap Token.bytes

def nestAll : List Token → List Frame → Option (List Frame)
  | [], stack => some stack
  | token :: rest, stack => (token.nest stack).bind (nestAll rest)

@[simp] theorem bytesOf_nil : bytesOf [] = [] := rfl

@[simp] theorem bytesOf_cons (token : Token) (rest : List Token) :
    bytesOf (token :: rest) = token.bytes ++ bytesOf rest := rfl

@[simp] theorem bytesOf_append (first second : List Token) :
    bytesOf (first ++ second) = bytesOf first ++ bytesOf second := List.flatMap_append

private theorem writes_raw (data : Bytes) (nonempty : data ≠ []) : Writes (encodeRawCbor data) data some where
  fits enc stack ready room same := by
    cases same
    have within : ¬data.length > enc.capacity - enc.buf.length := by omega
    simp only [encodeRawCbor, Proc.bind_apply, Proc.get_apply, if_neg nonempty, if_neg within, Proc.modify_apply]
    rfl
  full enc ready reason := by
    have room := ready.room
    rcases reason with long | stuck
    · have overfull : data.length > enc.capacity - enc.buf.length := by omega
      refine ⟨.overflow, enc.setError, ?_⟩
      simp only [encodeRawCbor, Proc.bind_apply, Proc.get_apply, if_neg nonempty, if_pos overfull]
      rfl
    · cases stuck

theorem writes_emit (token : Token) (whole : token ≠ .raw []) : Writes token.emit token.bytes token.nest := by
  cases token with
  | uint value => exact writes_item .uint value.toNat
  | bool value => exact writes_item .simple _
  | text value => exact writes_string .tstr value.bytes
  | bstr data => exact writes_string .bstr data
  | array count => exact writes_container .array count count
  | map count => exact writes_container .map count (count * 2)
  | raw data => exact writes_raw data fun empty => whole (by rw [empty])

theorem writes_tokens (tokens : List Token) (whole : ∀ token ∈ tokens, token ≠ .raw []) :
    Writes (Proc.each Token.emit tokens) (bytesOf tokens) (nestAll tokens) := by
  induction tokens with
  | nil => exact .pure
  | cons token rest ih =>
    exact (writes_emit token (whole token (by simp))).bind
      (ih fun later member => whole later (List.mem_cons_of_mem token member))

def emitAll (tokens : List Token) : Write Unit := serialize (tokens.map Token.emit)

theorem serialize_append (first second : List (Encode Unit)) :
    serialize (first ++ second) = serialize first >>= fun _ => serialize second := by
  simp only [serialize, Proc.each_append, Proc.orFail_bind]

theorem emitAll_append (first second : List Token) :
    emitAll (first ++ second) = emitAll first >>= fun _ => emitAll second := by
  simp only [emitAll, List.map_append, serialize_append]

theorem emitAll_flatMap {α : Type} (tokens : α → List Token) (items : List α) :
    emitAll (items.flatMap tokens) = Proc.each (fun item => emitAll (tokens item)) items := by
  induction items with
  | nil => rfl
  | cons item rest ih => rw [List.flatMap_cons, emitAll_append, ih, Proc.each]

theorem writes_emitAll (tokens : List Token) (whole : ∀ token ∈ tokens, token ≠ .raw []) :
    Writes (emitAll tokens) (bytesOf tokens) (nestAll tokens) := by
  have same : Proc.each id (tokens.map Token.emit) = Proc.each Token.emit tokens := by
    induction tokens with
    | nil => rfl
    | cons token rest ih =>
      rw [List.map_cons, Proc.each, Proc.each, ih fun later member => whole later (List.mem_cons_of_mem token member)]
      rfl
  unfold emitAll serialize
  rw [same]
  exact (writes_tokens tokens whole).orFail

abbrev Field := UInt64 × List Token

def fieldTokens (field : Field) : List Token := .uint field.1 :: field.2

def recordTokens (fields : List Field) : List Token := .map fields.length :: fields.flatMap fieldTokens

def unknownFieldsOf (fields : List UnknownField) : List Field :=
  fields.map fun field => (field.key, [.raw field.valueCbor])

def listTokens {α : Type} (tokens : α → List Token) (items : List α) : List Token :=
  .array items.length :: items.flatMap tokens

def textTokens (text : CStr) : List Token := [.text text]

def rawField (key : UInt64) (data : Bytes) : List Field :=
  if data.length > 0 then [(key, [.raw data])] else []

def customFieldFields (field : CustomField) : List Field :=
  [(1, [.text field.name]),
    (2, [.uint field.type.code]),
    (3, [.text field.textValue]),
    (4, [.uint field.dateValueMs]),
    (5, [.text field.binaryRef])] ++ unknownFieldsOf field.unknownFields

def attachmentRefFields (ref : AttachmentRef) : List Field :=
  [(1, [.text ref.attachmentId])] ++ unknownFieldsOf ref.unknownFields

def historyRevisionFields (revision : HistoryRevision) : List Field :=
  [(1, [.uint revision.revisionTsMs]),
    (2, [.text revision.source]),
    (3, [.text revision.actor]),
    (8, [.text revision.id]),
    (4, [.text revision.title]),
    (5, [.text revision.username]),
    (6, [.text revision.password]),
    (9, [.text revision.url]),
    (7, [.text revision.notes]),
    (10, [.text revision.groupId]),
    (11, listTokens textTokens revision.tags),
    (12, [.uint revision.createdAtMs]),
    (13, [.uint revision.updatedAtMs]),
    (14, [.bool revision.favorite])] ++ unknownFieldsOf revision.unknownFields

def attachmentFields (attachment : Attachment) : List Field :=
  [(1, [.text attachment.id]),
    (2, [.text attachment.name]),
    (3, [.text attachment.mime]),
    (4, [.uint (attachmentSizeValue attachment)]),
    (5, [.bstr (sha256Bytes attachment.sha256)]),
    (6, [.bstr attachment.blob])] ++ unknownFieldsOf attachment.unknownFields

def groupFields (group : Group) : List Field :=
  [(1, [.text group.id]),
    (2, [.text group.parentId]),
    (3, [.text group.title]),
    (4, [.text group.iconId]),
    (5, [.text group.color]),
    (6, [.text group.notes]),
    (7, [.uint group.createdAtMs]),
    (8, [.uint group.updatedAtMs]),
    (9, [.uint group.accessedAtMs])] ++ (rawField 10 group.customDataCbor ++ unknownFieldsOf group.unknownFields)

def recycleBinFields (bin : RecycleBin) : List Field :=
  [(1, [.bool bin.enabled]),
    (2, [.text bin.groupId]),
    (3, [.uint bin.retentionDays.toUInt64])] ++ unknownFieldsOf bin.unknownFields

def customFieldTokens (field : CustomField) : List Token := recordTokens (customFieldFields field)
def attachmentRefTokens (ref : AttachmentRef) : List Token := recordTokens (attachmentRefFields ref)
def historyRevisionTokens (revision : HistoryRevision) : List Token := recordTokens (historyRevisionFields revision)
def attachmentTokens (attachment : Attachment) : List Token := recordTokens (attachmentFields attachment)
def groupTokens (group : Group) : List Token := recordTokens (groupFields group)
def recycleBinTokens (bin : RecycleBin) : List Token := recordTokens (recycleBinFields bin)

def entryFields (entry : Entry) : List Field :=
  [(1, [.text entry.id]),
    (2, [.text entry.title]),
    (3, [.text entry.username]),
    (4, [.text entry.password]),
    (5, [.text (entry.urls.headD entry.url)]),
    (6, [.text entry.notes]),
    (7, listTokens textTokens entry.tags),
    (8, [.text entry.groupId]),
    (9, [.uint entry.createdAtMs]),
    (10, [.uint entry.updatedAtMs]),
    (11, [.bool entry.favorite]),
    (12, [.uint entry.accessedAtMs]),
    (13, [.text entry.colorLabel]),
    (14, [.uint entry.expiryAtMs]),
    (15, [.uint entry.expiryWarnDays.toUInt64]),
    (16, listTokens customFieldTokens entry.customFields),
    (17, listTokens attachmentRefTokens entry.attachmentRefs),
    (18, listTokens historyRevisionTokens entry.history),
    (19, [.bool entry.requiresFreshBiometric]),
    (20, listTokens textTokens entry.urls)] ++ unknownFieldsOf entry.unknownFields

def entryTokens (entry : Entry) : List Token := recordTokens (entryFields entry)

def vaultUuidField (uuid : Option (Buf 16)) : List Field :=
  match uuid with
  | some uuid => [(6, [.bstr uuid.bytes])]
  | none => []

def payloadFields (payload : Payload) : List Field :=
  [(1, [.uint payload.schemaVersion.toUInt64]),
    (2, [.uint payload.createdAtMs]),
    (3, [.uint payload.updatedAtMs]),
    (4, listTokens entryTokens payload.entries),
    (5, listTokens groupTokens payload.groups)] ++
  (vaultUuidField payload.vaultUuid ++
    ([(7, listTokens attachmentTokens payload.attachments),
      (8, recycleBinTokens payload.recycleBin)] ++
    (rawField 9 payload.securityAuditCacheCbor ++ unknownFieldsOf payload.unknownFields)))

def payloadTokens (payload : Payload) : List Token := recordTokens (payloadFields payload)

section Writers

private def emitFields (fields : List Field) : Write Unit := emitAll (fields.flatMap fieldTokens)

private def call (body : Encode Unit) : Write Unit := body.orFail .serialize

private theorem serialize_nil : serialize [] = pure () := rfl

private theorem serialize_cons (first : Encode Unit) (rest : List (Encode Unit)) :
    serialize (first :: rest) = call first >>= fun _ => serialize rest := by
  simp only [serialize, call, Proc.each, Proc.orFail_bind, id]

private theorem emitAll_one (token : Token) : emitAll [token] = call token.emit := by
  simp only [emitAll, List.map_cons, List.map_nil, serialize_cons, serialize_nil, bind_pure_unit]

private theorem emitAll_list {α : Type} (tokens : α → List Token) (items : List α) :
    emitAll (listTokens tokens items) =
      call (encodeArray items.length) >>= fun _ => Proc.each (fun item => emitAll (tokens item)) items := by
  rw [← emitAll_flatMap, emitAll, listTokens, List.map_cons, serialize_cons]
  rfl

private theorem emitFields_nil : emitFields [] = pure () := rfl

private theorem emitFields_cons (key : UInt64) (tokens : List Token) (rest : List Field) :
    emitFields ((key, tokens) :: rest) =
      call (encodeUint key) >>= fun _ => emitAll tokens >>= fun _ => emitFields rest := by
  rw [emitFields, List.flatMap_cons, emitAll_append, fieldTokens, emitAll, List.map_cons, serialize_cons, bind_assoc]
  rfl

private theorem emitFields_append (first second : List Field) :
    emitFields (first ++ second) = emitFields first >>= fun _ => emitFields second := by
  rw [emitFields, List.flatMap_append, emitAll_append]
  rfl

private theorem emitFields_unknown (fields : List UnknownField) :
    emitFields (unknownFieldsOf fields) = Proc.each encodeUnknownField fields := by
  rw [emitFields, unknownFieldsOf, List.flatMap_map, emitAll_flatMap]
  rfl

private theorem emitFields_raw (key : UInt64) (data : Bytes) :
    emitFields (rawField key data) =
      if data.length > 0 then serialize [encodeUint key, encodeRawCbor data] else pure () := by
  unfold rawField
  split
  · rfl
  · rfl

private theorem emitAll_record (fields : List Field) :
    emitAll (recordTokens fields) = call (encodeMap fields.length) >>= fun _ => emitFields fields := by
  rw [recordTokens, emitAll, List.map_cons, serialize_cons]
  rfl

private theorem unknownFieldsOf_length (fields : List UnknownField) :
    (unknownFieldsOf fields).length = fields.length := List.length_map _

private theorem rawField_length (key : UInt64) (data : Bytes) :
    (rawField key data).length = if data.length > 0 then 1 else 0 := by
  unfold rawField
  split
  · rfl
  · rfl

theorem each_congr {α : Type} {first second : α → Write Unit} {items : List α}
    (same : ∀ item ∈ items, first item = second item) : Proc.each first items = Proc.each second items := by
  induction items with
  | nil => rfl
  | cons item rest ih =>
    rw [Proc.each, Proc.each, same item (by simp), ih fun later member => same later (List.mem_cons_of_mem item member)]

theorem encodeCustomField_eq (field : CustomField) : encodeCustomField field = emitAll (customFieldTokens field) := by
  simp only [encodeCustomField, customFieldTokens, emitAll_record, customFieldFields, emitFields_append,
    emitFields_cons, emitFields_nil,
    emitFields_unknown, emitAll_one, Token.emit, serialize_cons, serialize_nil, bind_assoc, bind_pure_unit,
    List.length_append, List.length_cons, List.length_nil, unknownFieldsOf_length, Nat.reduceAdd]

theorem encodeAttachmentRef_eq (ref : AttachmentRef) : encodeAttachmentRef ref = emitAll (attachmentRefTokens ref) := by
  simp only [encodeAttachmentRef, attachmentRefTokens, emitAll_record, attachmentRefFields, emitFields_append,
    emitFields_cons, emitFields_nil,
    emitFields_unknown, emitAll_one, Token.emit, serialize_cons, serialize_nil, bind_assoc, bind_pure_unit,
    List.length_append, List.length_cons, List.length_nil, unknownFieldsOf_length, Nat.reduceAdd]

theorem encodeHistoryRevision_eq {revision : HistoryRevision} (valid : validateHistoryRevisionModel revision = .ok ()) :
    encodeHistoryRevision revision = emitAll (historyRevisionTokens revision) := by
  simp only [encodeHistoryRevision, valid, checkModel, historyRevisionTokens, emitAll_record, historyRevisionFields,
    emitAll_list, textTokens, emitFields_append, emitFields_cons, emitFields_nil, emitFields_unknown, emitAll_one,
    Token.emit, serialize_cons, serialize_nil, bind_assoc, pure_bind, bind_pure_unit, List.length_append, List.length_cons,
    List.length_nil, unknownFieldsOf_length, Nat.reduceAdd]

theorem encodeAttachment_eq (attachment : Attachment) :
    encodeAttachment attachment = emitAll (attachmentTokens attachment) := by
  simp only [encodeAttachment, attachmentTokens, emitAll_record, attachmentFields, emitFields_append, emitFields_cons,
    emitFields_nil,
    emitFields_unknown, emitAll_one, Token.emit, serialize_cons, serialize_nil, bind_assoc, bind_pure_unit,
    List.length_append, List.length_cons, List.length_nil, unknownFieldsOf_length, Nat.reduceAdd]

theorem encodeGroup_eq (group : Group) : encodeGroup group = emitAll (groupTokens group) := by
  have counted : 9 + ((if group.customDataCbor.length > 0 then 1 else 0) + group.unknownFields.length) =
      9 + group.unknownFields.length + if group.customDataCbor.length > 0 then 1 else 0 := by omega
  simp only [encodeGroup, groupTokens, emitAll_record, groupFields, emitFields_raw, rawField_length, counted,
    emitFields_append, emitFields_cons, emitFields_nil,
    emitFields_unknown, emitAll_one, Token.emit, serialize_cons, serialize_nil, bind_assoc, bind_pure_unit,
    List.length_append, List.length_cons, List.length_nil, unknownFieldsOf_length, Nat.reduceAdd]
  split
  · simp only [bind_assoc]
  · rfl

theorem encodeRecycleBin_eq (bin : RecycleBin) : encodeRecycleBin bin = emitAll (recycleBinTokens bin) := by
  simp only [encodeRecycleBin, recycleBinTokens, emitAll_record, recycleBinFields, emitFields_append, emitFields_cons,
    emitFields_nil,
    emitFields_unknown, emitAll_one, Token.emit, serialize_cons, serialize_nil, bind_assoc, bind_pure_unit,
    List.length_append, List.length_cons, List.length_nil, unknownFieldsOf_length, Nat.reduceAdd]

theorem encodeEntry_eq {entry : Entry} (valid : validateEntryModel entry = .ok ())
    (revisions : ∀ revision ∈ entry.history, validateHistoryRevisionModel revision = .ok ()) :
    encodeEntry entry = emitAll (entryTokens entry) := by
  have history := each_congr fun revision member => encodeHistoryRevision_eq (revisions revision member)
  simp only [encodeEntry, valid, checkModel, entryTokens, emitAll_record, entryFields, emitAll_list, textTokens,
    funext encodeCustomField_eq, funext encodeAttachmentRef_eq, history, emitFields_append, emitFields_cons,
      emitFields_nil, emitFields_unknown, emitAll_one,
    Token.emit, serialize_cons, serialize_nil, bind_assoc, pure_bind, bind_pure_unit, List.length_append, List.length_cons,
    List.length_nil, unknownFieldsOf_length, Nat.reduceAdd]

private theorem emitFields_uuid (uuid : Option (Buf 16)) :
    emitFields (vaultUuidField uuid) =
      match uuid with
      | some uuid => serialize [encodeUint 6, encodeBstr uuid.bytes]
      | none => pure () := by
  cases uuid with
  | none => rfl
  | some uuid => rfl

private theorem vaultUuidField_length (uuid : Option (Buf 16)) :
    (vaultUuidField uuid).length = if uuid.isSome then 1 else 0 := by
  cases uuid with
  | none => rfl
  | some uuid => rfl

theorem encodePayload_eq {payload : Payload} (valid : validatePayloadModel payload = .ok ())
    (entries : ∀ entry ∈ payload.entries, encodeEntry entry = emitAll (entryTokens entry)) :
    encodePayload payload = emitAll (payloadTokens payload) >>= fun _ => checkEncoder := by
  have counted (uuid audit : Nat) : 5 + (uuid + (2 + (audit + payload.unknownFields.length))) =
      7 + payload.unknownFields.length + uuid + audit := by omega
  simp only [encodePayload, valid, checkModel, payloadTokens, emitAll_record, payloadFields, emitAll_list, counted,
    each_congr entries, funext encodeGroup_eq, funext encodeAttachment_eq, encodeRecycleBin_eq, emitFields_raw,
    rawField_length, emitFields_uuid, vaultUuidField_length, emitFields_append, emitFields_cons, emitFields_nil,
    emitFields_unknown, emitAll_one, Token.emit, serialize_cons, serialize_nil, bind_assoc, pure_bind, bind_pure_unit,
    List.length_append, List.length_cons, List.length_nil, unknownFieldsOf_length, Nat.reduceAdd]
  by_cases audit : payload.securityAuditCacheCbor.length > 0
  · simp only [if_pos audit, bind_assoc]
    cases payload.vaultUuid with
    | none => simp only [pure_bind]
    | some uuid => simp only [bind_assoc]
  · simp only [if_neg audit, pure_bind]
    cases payload.vaultUuid with
    | none => simp only [pure_bind]
    | some uuid => simp only [bind_assoc]

end Writers

end Hiya.Pm
