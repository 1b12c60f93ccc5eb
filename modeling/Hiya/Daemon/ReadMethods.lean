import Hiya.Pm.AuditExport
import Hiya.Daemon.VaultMethods

/-! The methods of `bio_daemon.c` that answer with a part of the unlocked vault as a JSON text: an
entry, the groups, the searches, and the history and the attachments of an entry. -/

namespace Hiya.Daemon.Vaults
open Library Pm Pm.Store
open Fido2 (ascii)

/-- A digit of `%04x`. -/
def lowerHexDigit (value : Nat) : UInt8 := UInt8.ofNat (if value < 10 then 48 + value else 87 + value)

/-- One byte of `json_append_escaped_string`. -/
def jsonEscape (byte : UInt8) : Bytes :=
  if byte = 0x22 then ascii "\\\""
  else if byte = 0x5C then ascii "\\\\"
  else if byte = 0x08 then ascii "\\b"
  else if byte = 0x0C then ascii "\\f"
  else if byte = 0x0A then ascii "\\n"
  else if byte = 0x0D then ascii "\\r"
  else if byte = 0x09 then ascii "\\t"
  else if byte < 0x20 then ascii "\\u00" ++ [lowerHexDigit (byte.toNat / 16), lowerHexDigit (byte.toNat % 16)]
  else [byte]

def jsonString (value : CStr) : Bytes := 0x22 :: value.bytes.flatMap jsonEscape ++ [0x22]

/-- What stands in front of a text, the text, and what comes behind it. -/
def jsonMember (front : String) (value : CStr) (rest : Bytes) : Bytes := ascii front ++ jsonString value ++ rest

/-- The first custom field that holds a TOTP secret. -/
def totpValue (entry : Entry) : CStr := ((entry.customFields.find? fun field => field.type = .totp).map
    (·.textValue)).getD .empty

/-- `build_entry_json`. -/
def entryJson (entry : Entry) : Bytes :=
  jsonMember "\x7b\"id\":" entry.id <|
  jsonMember ",\"title\":" entry.title <|
  jsonMember ",\"username\":" entry.username <|
  jsonMember ",\"password\":" entry.password <|
  jsonMember ",\"url\":" entry.url <|
  jsonMember ",\"notes\":" entry.notes <|
  ascii ",\"requiresFreshBiometric\":" ++ ascii (if entry.requiresFreshBiometric then "true" else "false") ++
  jsonMember ",\"totp\":" (totpValue entry) (ascii "\x7d")

def getFails (problem : PmError) : MethodError where
  code := if problem = .notFound then .unknownObject else .failed
  text := "GetEntry failed: %s"
  cause := some problem

def getEntry (env : Env) (entryId : CStr) (slot : VaultSlot) : Except Refusal Bytes × VaultSlot :=
  match entryIdChecked entryId with
  | .error error => (.error (.refused error), slot)
  | .ok () =>
    match ensureUserVaultHandle env slot with
    | .error .fault => (.error .fault, slot)
    | .error (.error problem) => (.error (.refused (failed "Vault unavailable: %s" problem)), slot)
    | .ok handle =>
      let slot := { slot with handle := some handle }
      if handle.contents.locked then (.error (.refused (complains .accessDenied "Vault is locked")), slot)
      else match readEntry entryId handle.contents with
        | .error problem => (.error (.refused (getFails problem)), slot)
        | .ok entry => (.ok (entryJson entry), { slot with unlockedAt := env.now })

def payloadCountEntriesForGroup (payload : Payload) (groupId : CStr) : Nat :=
  if groupId = .empty then 0 else payload.entries.countP (·.groupId = groupId)

/-- The text so far, and the groups that are in it. -/
structure Printing where
  json : Bytes
  emitted : List Bool

namespace Printing

def write (printing : Printing) (text : Bytes) : Printing := { printing with json := printing.json ++ text }

def has (printing : Printing) (index : Nat) : Bool := printing.emitted.getD index false

end Printing

/-- One of the loops over the groups. The comma in front of a group is written before the group is,
and the flag is false from the first one on. -/
def appendEach (passed : Nat → Printing → Bool) (append : Nat → Printing → Printing) (indices : List Nat)
    (printing : Printing) (first : Bool) :
    Printing × Bool :=
  indices.foldl (fun (printing, first) index =>
    if passed index printing then (printing, first)
    else (append index (if first then printing else printing.write (ascii ",")), false)) (printing, first)

/-- A group up to the list of its children. -/
def groupOpening (payload : Payload) (group : Group) : Bytes :=
  jsonMember "\x7b\"id\":" group.id <|
  jsonMember ",\"parent_id\":" group.parentId <|
  jsonMember ",\"title\":" group.title <|
  jsonMember ",\"notes\":" group.notes <|
  jsonMember ",\"color\":" group.color <|
  ascii ",\"entry_count\":" ++ Audit.unsigned (payloadCountEntriesForGroup payload group.id) ++ ascii ",\"children\":["

/-- The parent of the candidate has this id. -/
def isChild (payload : Payload) (groupId : CStr) (index : Nat) : Bool :=
  match payload.groups[index]? with
  | none => false
  | some candidate => candidate.parentId ≠ .empty ∧ candidate.parentId = groupId

/-- The first argument is how many levels `depth` leaves, `group_count + 2` of them at the top. -/
def appendGroupNodeJson (payload : Payload) : Nat → Nat → Printing → Printing
  | 0, _, printing => printing
  | levels + 1, groupIndex, printing =>
    match payload.groups[groupIndex]? with
    | none => printing
    | some group =>
      if printing.has groupIndex then printing
      else
        let opened : Printing := { json := printing.json ++ groupOpening payload group, emitted := printing.emitted.set groupIndex true }
        let (printing, _) := appendEach (fun index _ => !isChild payload group.id index) (appendGroupNodeJson payload levels)
          (List.range payload.groups.length) opened true
        printing.write (ascii "]\x7d")

/-- No group has the id of the parent, or the first one that has it is the group itself. -/
def isRoot (payload : Payload) (index : Nat) : Bool :=
  match payload.groups[index]? with
  | none => false
  | some group =>
    match payloadFindGroupIndexById payload group.parentId with
    | none => true
    | some parent => parent = index

def groupsJson (payload : Payload) : Bytes :=
  let indices := List.range payload.groups.length
  let append := appendGroupNodeJson payload (payload.groups.length + 2)
  let opened : Printing := { json := ascii "[", emitted := List.replicate payload.groups.length false }
  let (printing, first) := appendEach (fun index _ => !isRoot payload index) append indices opened true
  let (printing, _) := appendEach (fun index printing => printing.has index) append indices printing first
  printing.json ++ ascii "]"

/-- `calloc` has memory for the marks, or not. -/
def buildGroupsJson (memory : Bool) (handle : VaultHandle) : Except PmError Bytes :=
  match (vaultGetPayloadModel handle).1 with
  | .error problem => .error problem
  | .ok payload => if payload.groups ≠ [] ∧ memory = false then .error .nomem else .ok (groupsJson payload)

inductive Field
  | text (bytes : Bytes)
  | flag (value : Bool)
  | number (value : UInt64)

def Field.json : Field → Bytes
  | text bytes => 0x22 :: bytes.flatMap jsonEscape ++ [0x22]
  | flag value => ascii (if value then "true" else "false")
  | number value => Audit.unsigned value.toNat

/-- The members of an object; a comma stands in front of each but the first. -/
def jsonMembers : List (String × Field) → Bytes
  | [] => []
  | [(key, field)] => 0x22 :: ascii key ++ [0x22, 0x3A] ++ field.json
  | (key, field) :: rest => 0x22 :: ascii key ++ [0x22, 0x3A] ++ field.json ++ 0x2C :: jsonMembers rest

def jsonObject (members : List (String × Field)) : Bytes := 0x7B :: jsonMembers members ++ [0x7D]

/-- The loop over the items. The flag is false from the first one on. -/
def jsonList (items : List Bytes) : Bytes :=
  let (json, _) := items.foldl (fun (json, first) item =>
    (if first then json ++ item else json ++ ascii "," ++ item, false)) (ascii "[", true)
  json ++ ascii "]"

/-- A needle is somewhere in a text, whatever the case of the letters. -/
def containsCaseInsensitive (haystack needle : CStr) : Bool :=
  let hlen := haystack.bytes.length
  let nlen := needle.bytes.length
  if nlen = 0 then true
  else if nlen > hlen then false
  else (List.range (hlen - nlen + 1)).any fun i =>
    (List.range nlen).all fun j => tolower (haystack.bytes.getD (i + j) 0) = tolower (needle.bytes.getD j 0)

def entryMatchesSearch (entry : Entry) (query url : CStr) : Bool :=
  let queryOk := if query ≠ .empty then
      containsCaseInsensitive entry.title query || containsCaseInsensitive entry.username query ||
        containsCaseInsensitive entry.url query || containsCaseInsensitive entry.notes query ||
        entry.urls.any (containsCaseInsensitive · query)
    else true
  let urlOk := if url ≠ .empty then containsCaseInsensitive entry.url url || entry.urls.any
    (containsCaseInsensitive · url) else true
  queryOk && urlOk

def hasTotp (entry : Entry) : Bool := entry.customFields.any fun field => field.type = .totp ∧ field.textValue ≠ .empty

def searchFields (entry : Entry) : List (String × Field) := [
  ("id", .text entry.id.bytes),
  ("title", .text entry.title.bytes),
  ("username", .text entry.username.bytes),
  ("url", .text entry.url.bytes),
  ("group_id", .text entry.groupId.bytes),
  ("has_totp", .flag (hasTotp entry))]

def searchHits (payload : Payload) (query url groupId : CStr) (includeDescendants : Bool) : List Entry :=
  payload.entries.filter fun entry =>
    entryMatchesSearch entry query url && payloadEntryGroupMatchesScope payload entry.groupId groupId includeDescendants

def buildSearchJsonScoped (query url groupId : CStr) (includeDescendants : Bool) (handle : VaultHandle) :
    Except PmError Bytes := do
  let payload ← (vaultGetPayloadModel handle).1
  pure (jsonList ((searchHits payload query url groupId includeDescendants).map fun entry => jsonObject (searchFields entry)))

/-- Without a group every entry is in scope. -/
def buildSearchJson (query url : CStr) : VaultHandle → Except PmError Bytes := buildSearchJsonScoped query url .empty false

def revisionFields (rev : HistoryRevision) : List (String × Field) := [
  ("revision_ts_ms", .number rev.revisionTsMs),
  ("updated_at_ms", .number rev.updatedAtMs),
  ("favorite", .flag rev.favorite),
  ("source", .text rev.source.bytes),
  ("actor", .text rev.actor.bytes),
  ("id", .text rev.id.bytes),
  ("title", .text rev.title.bytes),
  ("username", .text rev.username.bytes),
  ("url", .text rev.url.bytes),
  ("notes", .text rev.notes.bytes),
  ("group_id", .text rev.groupId.bytes)]

def buildEntryHistoryJson (entryId : CStr) (handle : VaultHandle) : Except PmError Bytes := do
  let entry ← (vaultEntryGet entryId handle).1
  pure (jsonList (entry.history.map fun rev => jsonObject (revisionFields rev)))

def payloadFindAttachmentById (payload : Payload) (attachmentId : CStr) : Option Attachment :=
  if attachmentId = .empty then none else payload.attachments.find? (·.id = attachmentId)

/-- `digest_to_hex32`. -/
def digestToHex32 (digest : Buf 32) : Bytes :=
    digest.bytes.flatMap fun byte => [lowerHexDigit (byte.toNat / 16), lowerHexDigit (byte.toNat % 16)]

/-- What is said of an attachment that is there. -/
def attachmentDetails (attachment : Attachment) : List (String × Field) :=
  [("name", .text attachment.name.bytes), ("mime", .text attachment.mime.bytes), ("size", .number attachment.size)] ++
    (attachment.sha256.map fun digest => ("sha256", Field.text (digestToHex32 digest))).toList

def attachmentFields (payload : Payload) (ref : AttachmentRef) : List (String × Field) :=
  let attachment := payloadFindAttachmentById payload ref.attachmentId
  [("id", .text ref.attachmentId.bytes), ("found", .flag attachment.isSome)] ++ (attachment.map attachmentDetails).getD []

def buildEntryAttachmentsJson (entryId : CStr) (handle : VaultHandle) : Except PmError Bytes := do
  let payload ← (vaultGetPayloadModel handle).1
  let entry ← (vaultEntryGet entryId handle).1
  pure (jsonList (entry.attachmentRefs.map fun ref => jsonObject (attachmentFields payload ref)))

def readFails (text : String) (problem : PmError) : MethodError where
  code := .failed
  text
  cause := some problem

/-- An entry that is not there has an error of its own. -/
def readEntryFails (text : String) (problem : PmError) : MethodError where
  code := if problem = .notFound then .unknownObject else .failed
  text
  cause := some problem

/-- Find the handle of the caller, and answer with what is built from it when it is unlocked. -/
def readVault (env : Env) (checked : Except MethodError Unit) (fails : PmError → MethodError)
    (build : VaultHandle → Except PmError Bytes) (slot : VaultSlot) : Except Refusal Bytes × VaultSlot :=
  match checked with
  | .error error => (.error (.refused error), slot)
  | .ok () =>
    match ensureUserVaultHandle env slot with
    | .error .fault => (.error .fault, slot)
    | .error (.error problem) => (.error (.refused (failed "Vault unavailable: %s" problem)), slot)
    | .ok handle =>
      let slot := { slot with handle := some handle }
      if handle.contents.locked then (.error (.refused (complains .accessDenied "Vault is locked")), slot)
      else match build handle.contents with
        | .error problem => (.error (.refused (fails problem)), slot)
        | .ok json => (.ok json, { slot with unlockedAt := env.now })

inductive ReadCall
  | search (query url : CStr)
  | searchAdvanced (query url groupId : CStr) (includeDescendants : Bool)
  | getEntry (entryId : CStr)
  /-- With memory for the marks, or without. -/
  | listGroups (memory : Bool)
  | getEntryHistory (entryId : CStr)
  | listEntryAttachments (entryId : CStr)

def answerRead (env : Env) : ReadCall → VaultSlot → Except Refusal Bytes × VaultSlot
  | .search query url => readVault env (.ok ()) (readFails "Vault search failed: %s") (buildSearchJson query url)
  | .searchAdvanced query url groupId includeDescendants =>
    readVault env (.ok ()) (readFails "Vault advanced search failed: %s")
    (buildSearchJsonScoped query url groupId includeDescendants)
  | .getEntry entryId => getEntry env entryId
  | .listGroups memory => readVault env (.ok ()) (readFails "ListGroups failed: %s") (buildGroupsJson memory)
  | .getEntryHistory entryId =>
    readVault env (entryIdChecked entryId) (readEntryFails "GetEntryHistory failed: %s") (buildEntryHistoryJson entryId)
  | .listEntryAttachments entryId =>
    readVault env (entryIdChecked entryId) (readEntryFails "ListEntryAttachments failed: %s")
    (buildEntryAttachmentsJson entryId)

end Hiya.Daemon.Vaults
