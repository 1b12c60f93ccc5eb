import Hiya.Fido2.Context
import Hiya.Pm.VaultStore

/-! The methods of `bio_daemon.c` that change a vault. Each of them checks its arguments,
finds the handle of the caller, plans a change, applies it to the payload in memory, saves
the vault and answers. -/

namespace Hiya.Daemon.Vaults
open Library Pm Pm.Store
open Fido2 (ascii)
open Pm.Format (ensure orFail Primitives Stop)

inductive DbusError
  | invalidArgs
  | accessDenied
  | noMemory
  | unknownObject
  | failed
  deriving DecidableEq, Repr

/-- An error reply. Where its text has a gap, it is filled with the name of the cause. -/
structure MethodError where
  code : DbusError
  text : String
  cause : Option PmError
  deriving DecidableEq

def complains (code : DbusError) (text : String) : MethodError where
  code
  text
  cause := none

def failed (text : String) (cause : PmError) : MethodError where
  code := .failed
  text
  cause := some cause

inductive Refusal
  | refused (error : MethodError)
  | fault
  deriving DecidableEq

inductive Reply
  | nothing
  | text (value : CStr)
  | bool (value : Bool)
  deriving DecidableEq

/-- The slot of the caller and the file behind it. -/
structure VaultSlot where
  file : Option Bytes
  handle : Option Handle
  unlockedAt : UInt64

/-- What a call finds: the store, the clocks, a new identifier, and memory for an entry,
for single copies and for the reply. -/
structure Env where
  store : Store.Env
  slotFree : Bool
  nowMs : UInt64
  now : UInt64
  uuid : Option CStr
  entryMemory : Bool
  copies : Nat → Bool
  replyMemory : Bool

/-- The handle that is there, or a new one that is locked. -/
def ensureUserVaultHandle (env : Env) (slot : VaultSlot) : Except Stop Handle :=
  match slot.handle with
  | some handle => .ok handle
  | none => if env.slotFree then vaultOpen env.store slot.file else .error (.error .state)

/-- What a method is about to do, and how it will answer. -/
structure Plan where
  edit : Edit
  reply : Except MethodError Reply

/-- The texts for a change that is refused and for one that is not saved. -/
structure Texts where
  refused : String
  unsaved : String

section
variable (lib : Primitives) (env : Env)

def applyPlan (texts : Texts) (plan : Plan) (handle : Handle) (slot : VaultSlot) : Except Refusal Reply × VaultSlot :=
  let (outcome, contents) := plan.edit.apply handle.contents
  let handle := { handle with contents }
  let slot := { slot with handle := some handle }
  match outcome with
  | .error problem => (.error (.refused (failed texts.refused problem)), slot)
  | .ok () =>
    match vaultSave lib env.store handle with
    | .error problem => (.error (.refused (failed texts.unsaved problem)), slot)
    | .ok (handle, blob) =>
      let slot := { slot with file := some blob, handle := some handle }
      match plan.reply with
      | .error error => (.error (.refused error), slot)
      | .ok reply => (.ok reply, { slot with unlockedAt := env.now })

def changeVault (texts : Texts) (checked : Except MethodError Unit) (plan : VaultHandle → Except MethodError Plan)
    (slot : VaultSlot) :
    Except Refusal Reply × VaultSlot :=
  match checked with
  | .error error => (.error (.refused error), slot)
  | .ok () =>
    match ensureUserVaultHandle env slot with
    | .error .fault => (.error .fault, slot)
    | .error (.error problem) => (.error (.refused (failed "Vault unavailable: %s" problem)), slot)
    | .ok handle =>
      let slot := { slot with handle := some handle }
      if handle.contents.locked then (.error (.refused (complains .accessDenied "Vault is locked")), slot)
      else match plan handle.contents with
        | .error error => (.error (.refused error), slot)
        | .ok plan => applyPlan lib env texts plan handle slot

end

def literal (value : String) : CStr := (dupBytesAsCstr (ascii value)).getD .empty

/-- `pm_entry_init`. -/
def entryInit : Entry where
  id := .empty
  title := .empty
  username := .empty
  password := .empty
  url := .empty
  urls := []
  notes := .empty
  groupId := .empty
  tags := []
  createdAtMs := 0
  updatedAtMs := 0
  accessedAtMs := 0
  favorite := false
  colorLabel := .empty
  expiryAtMs := 0
  expiryWarnDays := 0
  requiresFreshBiometric := false
  customFields := []
  attachmentRefs := []
  history := []
  unknownFields := []

def tolower (byte : UInt8) : UInt8 := if 0x41 ≤ byte ∧ byte ≤ 0x5A then byte + 0x20 else byte

/-- `strcasecmp` finds no difference. -/
def sameIgnoringCase (first second : CStr) : Bool := first.bytes.map tolower = second.bytes.map tolower

section
variable (env : Env)

def stamped (entry : Entry) : Entry := { entry with createdAtMs := env.nowMs, updatedAtMs := env.nowMs, accessedAtMs := env.nowMs }

structure Credential where
  url : CStr
  username : CStr
  password : CStr
  title : CStr

/-- The new path has the title first, the old one has it last. -/
def Credential.ofArgs (daemonApiPath : Bool) (first second third fourth : CStr) : Credential :=
  if daemonApiPath then { title := first, url := second, username := third, password := fourth }
  else { url := first, username := second, password := third, title := fourth }

def credentialChecked (credential : Credential) : Except MethodError Unit :=
  ensure (credential.url ≠ .empty ∧ credential.password ≠ .empty) (complains .invalidArgs "url and password are required")

def credentialEntry (id : CStr) (credential : Credential) : Entry :=
  stamped env { entryInit with
    id
    url := credential.url
    urls := [credential.url]
    username := credential.username
    password := credential.password
    title := if credential.title ≠ .empty then credential.title else credential.url }

def credentialPlan (credential : Credential) (_ : VaultHandle) : Except MethodError Plan := do
  let id ← orFail (complains .noMemory "Failed to allocate entry id") env.uuid
  ensure (env.entryMemory = true) (complains .noMemory "Failed to allocate credential fields")
  pure {
    edit := .entryAdd (credentialEntry env id credential) false
    reply := if env.replyMemory then .ok (.text id) else .error (complains .noMemory "Failed to allocate response") }

def entryIdChecked (entryId : CStr) : Except MethodError Unit :=
  ensure (entryId ≠ .empty) (complains .invalidArgs "entry_id is required")

def deletePlan (entryId : CStr) (_ : VaultHandle) : Except MethodError Plan :=
    .ok { edit := .entryRemove entryId, reply := .ok .nothing }

structure Changes where
  url : Option CStr
  username : Option CStr
  password : Option CStr
  title : Option CStr
  notes : Option CStr

/-- One field of the dictionary of `UpdateCredential`; the last of a name counts. -/
def Changes.read (changes : Changes) (field : CStr × CStr) : Changes :=
  if sameIgnoringCase field.1 (literal "url") then { changes with url := some field.2 }
  else if sameIgnoringCase field.1 (literal "username") then { changes with username := some field.2 }
  else if sameIgnoringCase field.1 (literal "password") then { changes with password := some field.2 }
  else if sameIgnoringCase field.1 (literal "title") then { changes with title := some field.2 }
  else if sameIgnoringCase field.1 (literal "notes") then { changes with notes := some field.2 }
  else changes

def Changes.ofFields (fields : List (CStr × CStr)) : Changes :=
  fields.foldl Changes.read { url := none, username := none, password := none, title := none, notes := none }

/-- A copy that may fail, and then reads as the empty string. -/
def strdup (index : Nat) (value : CStr) : CStr := if env.copies index then value else .empty

def setGiven (index : Nat) (given : Option CStr) (old : CStr) : CStr :=
  match given with
  | some value => strdup env index value
  | none => old

/-- A field that is set when it is given and not empty. -/
def setNonempty (index : Nat) (given : Option CStr) (old : CStr) : CStr :=
  if given = some .empty then old else setGiven env index given old

def changedEntry (changes : Changes) (entry : Entry) : Entry :=
  { entry with
    url := setNonempty env 0 changes.url entry.url
    username := setGiven env 1 changes.username entry.username
    password := setNonempty env 2 changes.password entry.password
    title := setNonempty env 3 changes.title entry.title
    notes := setGiven env 4 changes.notes entry.notes
    updatedAtMs := env.nowMs }

/-- `pm_vault_entry_get`, which changes nothing. -/
def readEntry (entryId : CStr) (contents : VaultHandle) : Except PmError Entry := (vaultEntryGet entryId contents).1

def blames {α : Type} (error : PmError → MethodError) : Except PmError α → Except MethodError α
  | .ok value => .ok value
  | .error problem => .error (error problem)

def updatePlan (entryId : CStr) (changes : Changes) (contents : VaultHandle) : Except MethodError Plan := do
  let entry ← blames (failed "Entry not found: %s") (readEntry entryId contents)
  pure { edit := .entryUpdate entryId (changedEntry env changes entry), reply := .ok .nothing }

def restoreEntryFromRevision (entry : Entry) (revision : HistoryRevision) : Except PmError Entry := do
  ensure (env.entryMemory = true) .nomem
  pure { entry with
    title := revision.title
    username := revision.username
    password := revision.password
    url := revision.url
    notes := revision.notes
    groupId := revision.groupId
    tags := revision.tags
    urls := if revision.url ≠ .empty then [revision.url] else []
    favorite := revision.favorite
    updatedAtMs := env.nowMs
    accessedAtMs := env.nowMs }

def restoreFails (problem : PmError) : MethodError where
  code := if problem = .notFound then .unknownObject else .failed
  text := "RestoreEntryRevision failed: %s"
  cause := some problem

def restorePlan (entryId : CStr) (revisionIndex : UInt32) (contents : VaultHandle) : Except MethodError Plan := do
  let entry ← blames restoreFails (readEntry entryId contents)
  let revision ← orFail (complains .invalidArgs "revision_index out of range") entry.history[revisionIndex.toNat]?
  let restored ← blames (failed "Revision restore build failed: %s") (restoreEntryFromRevision env entry revision)
  pure { edit := .entryUpdate entryId restored, reply := .ok (.bool true) }

def passkeyKindValue : CStr := literal "passkey"
def passkeyFieldKind : CStr := literal "hiya.kind"
def passkeyFieldRpId : CStr := literal "passkey.rp_id"
def passkeyFieldUserId : CStr := literal "passkey.user_id"
def passkeyFieldPrivateKeyB64 : CStr := literal "passkey.private_key_b64"
def passkeyFieldPublicKeyB64 : CStr := literal "passkey.public_key_b64"

def base64Digit (value : Nat) : UInt8 :=
  (ascii "ABCDEFGHIJKLMNOPQRSTUVWXYZabcdefghijklmnopqrstuvwxyz0123456789+/").getD value 0

/-- `g_base64_encode`: three bytes become four digits, the last of them filled up. -/
def base64Encode : Bytes → Bytes
  | [] => []
  | [first] => [base64Digit (first.toNat / 4), base64Digit (first.toNat % 4 * 16), 0x3D, 0x3D]
  | [first, second] => [base64Digit (first.toNat / 4), base64Digit (first.toNat % 4 * 16 + second.toNat / 16),
      base64Digit (second.toNat % 16 * 4), 0x3D]
  | first :: second :: third :: rest =>
    base64Digit (first.toNat / 4) :: base64Digit (first.toNat % 4 * 16 + second.toNat / 16) ::
      base64Digit (second.toNat % 16 * 4 + third.toNat / 64) :: base64Digit (third.toNat % 64) :: base64Encode rest

def entryCustomFieldText (name : CStr) (entry : Entry) : Option CStr :=
  (entry.customFields.find? fun field => sameIgnoringCase field.name name).map (·.textValue)

def entryIsPasskey (entry : Entry) : Bool :=
  entryCustomFieldText passkeyFieldKind entry = some passkeyKindValue ∨ (entryCustomFieldText passkeyFieldRpId entry).isSome

/-- Replace the first field of this name, or add one. -/
def entrySetCustomText (name : CStr) (type : CustomFieldType) (value : CStr) (entry : Entry) : Entry :=
  { entry with
    customFields := match entry.customFields.findIdx? fun field => sameIgnoringCase field.name name with
      | some place =>
        entry.customFields.modify place fun field => { field with textValue := value, binaryRef := .empty, dateValueMs := 0, type }
      | none =>
        entry.customFields ++ [{ name, type, textValue := value, dateValueMs := 0, binaryRef := .empty, unknownFields := [] }] }

/-- The first passkey for a relying party, in the order of the payload. -/
def findPasskeyEntryByRp (rpId : CStr) (contents : VaultHandle) : Except PmError Entry := do
  let payload ← (vaultGetPayloadModel contents).1
  orFail .notFound (payload.entries.findSome? fun listed =>
    ((readEntry listed.id contents).toOption.filter entryIsPasskey).filter fun entry =>
      entryCustomFieldText passkeyFieldRpId entry = some rpId)

def passkeyTitle (rpId : CStr) : CStr := (dupBytesAsCstr (ascii "Passkey for " ++ rpId.bytes)).getD rpId

def newPasskeyEntry (id rpId userId : CStr) : Entry :=
  stamped env { entryInit with id, url := rpId, urls := [rpId], username := userId, title := passkeyTitle rpId }

def oldPasskeyEntry (rpId userId : CStr) (entry : Entry) : Entry :=
  let url := if entry.url = .empty then rpId else entry.url
  { entry with
    url
    urls := if entry.urls = [] then [url] else entry.urls
    username := userId
    title := if entry.title = .empty then passkeyTitle rpId else entry.title
    updatedAtMs := env.nowMs
    accessedAtMs := env.nowMs }

structure Passkey where
  rpId : CStr
  userId : CStr
  privateKey : Bytes
  publicKey : Bytes

def passkeyKeyText (key : Bytes) : Except MethodError CStr :=
  orFail (complains .noMemory "Failed to encode passkey material") (dupBytesAsCstr (base64Encode key))

def passkeyChecked (passkey : Passkey) : Except MethodError Unit := do
  ensure (passkey.rpId ≠ .empty ∧ passkey.privateKey ≠ [] ∧ passkey.publicKey ≠ [])
    (complains .invalidArgs "rp_id, private_key, and public_key are required")
  let _ ← passkeyKeyText passkey.privateKey
  let _ ← passkeyKeyText passkey.publicKey

def passkeyFields (passkey : Passkey) (privateKey publicKey : CStr) (entry : Entry) : Entry :=
  entry
    |> entrySetCustomText passkeyFieldKind .text passkeyKindValue
    |> entrySetCustomText passkeyFieldRpId .text passkey.rpId
    |> entrySetCustomText passkeyFieldUserId .text passkey.userId
    |> entrySetCustomText passkeyFieldPrivateKeyB64 .hidden privateKey
    |> entrySetCustomText passkeyFieldPublicKeyB64 .text publicKey

/-- The entry to be written, and whether it is there already. -/
def passkeyEntry (passkey : Passkey) (contents : VaultHandle) : Except MethodError (Entry × Bool) :=
  match findPasskeyEntryByRp passkey.rpId contents with
  | .ok entry => .ok (oldPasskeyEntry env passkey.rpId passkey.userId entry, true)
  | .error .notFound => do
    let id ← orFail (complains .noMemory "Failed to allocate passkey id") env.uuid
    pure (newPasskeyEntry env id passkey.rpId passkey.userId, false)
  | .error problem => .error (failed "Passkey lookup failed: %s" problem)

def storeFails (problem : PmError) : MethodError where
  code := .noMemory
  text := "Failed to store passkey fields: %s"
  cause := some problem

def passkeyPlan (passkey : Passkey) (contents : VaultHandle) : Except MethodError Plan := do
  let privateKey ← passkeyKeyText passkey.privateKey
  let publicKey ← passkeyKeyText passkey.publicKey
  let (entry, existing) ← passkeyEntry env passkey contents
  ensure (env.entryMemory = true) (complains .noMemory "Failed to allocate passkey entry fields")
  ensure (env.copies 0 = true) (storeFails .nomem)
  let entry := passkeyFields passkey privateKey publicKey entry
  pure { edit := if existing then .entryUpdate entry.id entry else .entryAdd entry false, reply := .ok .nothing }

/-- `pm_otp_import_from_qr` at some time. It leaves parts of the entry as they were in
memory, so it is not told here what it makes of a text. -/
abbrev OtpImport := CStr → UInt64 → Except PmError Entry

def qrChecked (qrText : CStr) : Except MethodError Unit :=
    ensure (qrText ≠ .empty) (complains .invalidArgs "qr_text is required")

def parseFails (problem : PmError) : MethodError where
  code := .invalidArgs
  text := "Failed to parse QR code: %s"
  cause := some problem

def totpPlan (otpImportFromQr : OtpImport) (qrText : CStr) (_ : VaultHandle) : Except MethodError Plan := do
  let entry ← blames parseFails (otpImportFromQr qrText env.now)
  pure { edit := .entryAdd entry true, reply := .ok (.text (if env.replyMemory then entry.id else .empty)) }

end

inductive Call
  | saveCredential (daemonApiPath : Bool) (first second third fourth : CStr)
  | deleteEntry (entryId : CStr)
  | updateEntry (entryId url username password title : CStr)
  | updateCredential (entryId : CStr) (fields : List (CStr × CStr))
  | restoreEntryRevision (entryId : CStr) (revisionIndex : UInt32)
  | savePasskey (passkey : Passkey)
  | importTotp (qrText : CStr)

namespace Call
variable (otpImportFromQr : OtpImport) (lib : Primitives) (env : Env)

def texts : Call → Texts
  | saveCredential .. => ⟨"Failed to save credential: %s", "Failed to persist credential: %s"⟩
  | deleteEntry .. => ⟨"Delete failed: %s", "Persist failed: %s"⟩
  | updateEntry .. => ⟨"Update failed: %s", "Persist failed: %s"⟩
  | updateCredential .. => ⟨"Update failed: %s", "Persist failed: %s"⟩
  | restoreEntryRevision .. => ⟨"Revision restore update failed: %s", "Revision restore persist failed: %s"⟩
  | savePasskey .. => ⟨"Failed to save passkey entry: %s", "Failed to persist passkey entry: %s"⟩
  | importTotp .. => ⟨"Failed to add TOTP entry: %s", "Failed to persist TOTP entry: %s"⟩

def checked : Call → Except MethodError Unit
  | saveCredential daemonApiPath first second third fourth =>
    credentialChecked (.ofArgs daemonApiPath first second third fourth)
  | deleteEntry entryId => entryIdChecked entryId
  | updateEntry entryId .. => entryIdChecked entryId
  | updateCredential entryId _ => entryIdChecked entryId
  | restoreEntryRevision entryId _ => entryIdChecked entryId
  | savePasskey passkey => passkeyChecked passkey
  | importTotp qrText => qrChecked qrText

def plan : Call → VaultHandle → Except MethodError Plan
  | saveCredential daemonApiPath first second third fourth =>
    credentialPlan env (.ofArgs daemonApiPath first second third fourth)
  | deleteEntry entryId => deletePlan entryId
  | updateEntry entryId url username password title =>
    updatePlan env entryId { url := some url, username := some username, password := some password, title := some title, notes := none }
  | updateCredential entryId fields => updatePlan env entryId (.ofFields fields)
  | restoreEntryRevision entryId revisionIndex => restorePlan env entryId revisionIndex
  | savePasskey passkey => passkeyPlan env passkey
  | importTotp qrText => totpPlan env otpImportFromQr qrText

/-- `handle_method_call` for these methods. -/
def run (call : Call) (slot : VaultSlot) : Except Refusal Reply × VaultSlot :=
  changeVault lib env call.texts call.checked (call.plan otpImportFromQr env) slot

end Call

end Hiya.Daemon.Vaults
