import Hiya.Pm.PayloadDecode
import Hiya.Pm.PayloadEncode

/-! Entries of an unlocked vault: the history ring of `pm_history.c`, the payload
accessors of `pm_vault_store.c` and the entry operations of `pm_entry_store.c`. An
unlocked handle keeps its payload encoded; every operation decodes it, builds a new
payload and encodes that again. -/

namespace Hiya.Pm
open Library Cbor

def historyMaxRevisions : Nat := maxHistoryPerEntry

/-- A snapshot of an entry, copied and so checked. -/
def entryRevisionFromEntry (entry : Entry) (revisionTsMs : UInt64) (actor source : CStr) :
    Except PmError HistoryRevision := do
  let snapshot : HistoryRevision := {
    revisionTsMs, actor, source
    id := entry.id
    title := entry.title
    username := entry.username
    password := entry.password
    url := entry.url
    notes := entry.notes
    groupId := entry.groupId
    tags := entry.tags
    createdAtMs := entry.createdAtMs
    updatedAtMs := entry.updatedAtMs
    favorite := entry.favorite
    unknownFields := entry.unknownFields }
  validateHistoryRevisionModel snapshot
  pure snapshot

/-- Append a revision; a full history drops its oldest one. -/
def historyPush (entry : Entry) (revision : HistoryRevision) : Except PmError Entry :=
  if entry.history.length > historyMaxRevisions then .error .state
  else do
    validateHistoryRevisionModel revision
    if entry.history.length < historyMaxRevisions then
      pure { entry with history := entry.history ++ [revision] }
    else
      pure { entry with history := entry.history.tail ++ [revision] }

/-- The part of a vault handle the payload accessors use. -/
structure VaultHandle where
  locked : Bool
  payload : Bytes
  deriving DecidableEq

abbrev Vault := Proc VaultHandle PmError

def liftVault {α : Type} (outcome : Except PmError α) : Vault α :=
  match outcome with
  | .ok value => pure value
  | .error problem => Proc.fail problem

def vaultGetPayloadModel : Vault Payload := do
  let handle ← Proc.get
  if handle.locked then Proc.fail .locked
  else if handle.payload = [] then Proc.fail .state
  else liftVault (payloadDecodeCbor handle.payload)

/-- Install an encoded payload after decoding it once to check it. -/
def vaultSetPayload (payload : Bytes) : Vault Unit := do
  let handle ← Proc.get
  if payload = [] then Proc.fail .invalidParam
  else if handle.locked then Proc.fail .locked
  else do
    let _ ← liftVault (payloadDecodeCbor payload)
    Proc.modify fun handle => { handle with payload }

def vaultSetPayloadModel (payload : Payload) : Vault Unit := do
  let handle ← Proc.get
  if handle.locked then Proc.fail .locked
  else do
    let encoded ← liftVault (payloadEncodeCbor payload)
    vaultSetPayload encoded

def validEntryId (entryId : CStr) : Bool := entryId ≠ .empty

def vaultEntryGet (entryId : CStr) : Vault Entry := do
  if !validEntryId entryId then Proc.fail .invalidParam
  else do
    let payload ← vaultGetPayloadModel
    match payload.entries.find? (·.id = entryId) with
    | some entry => liftVault (entryClone entry)
    | none => Proc.fail .notFound

/-- The payload that update and remove start from. -/
def updatedInit (payload : Payload) : Payload :=
  { payloadInit with
    schemaVersion := payload.schemaVersion
    createdAtMs := payload.createdAtMs
    updatedAtMs := payload.updatedAtMs }

/-- The replacement of one entry, with the replaced one pushed onto its history. -/
def replaceEntry (replacement source : Entry) : Except PmError Entry := do
  let updatedEntry ← entryClone replacement
  let revisionTsMs := if replacement.updatedAtMs ≠ 0 then replacement.updatedAtMs else source.updatedAtMs
  let revision ← entryRevisionFromEntry source revisionTsMs .empty .empty
  historyPush updatedEntry revision

def updateStep (entryId : CStr) (replacement : Entry) (state : Payload × Bool) (source : Entry) :
    Except PmError (Payload × Bool) := do
  let (updated, found) := state
  if source.id = entryId then do
    let updatedEntry ← replaceEntry replacement source
    pure (← payloadAppendEntry updated updatedEntry, true)
  else do
    pure (← payloadAppendEntry updated source, found)

def vaultEntryUpdate (entryId : CStr) (replacement : Entry) : Vault Unit := do
  if !validEntryId entryId || !validEntryId replacement.id then Proc.fail .invalidParam
  else do
    let payload ← vaultGetPayloadModel
    let (updated, found) ← liftVault
      (payload.entries.foldlM (updateStep entryId replacement) (updatedInit payload, false))
    if !found then Proc.fail .notFound else vaultSetPayloadModel updated

def removeStep (entryId : CStr) (state : Payload × Bool) (source : Entry) : Except PmError (Payload × Bool) := do
  let (updated, found) := state
  if source.id = entryId then pure (updated, true)
  else do pure (← payloadAppendEntry updated source, found)

def vaultEntryRemove (entryId : CStr) : Vault Unit := do
  if !validEntryId entryId then Proc.fail .invalidParam
  else do
    let payload ← vaultGetPayloadModel
    let (updated, found) ← liftVault (payload.entries.foldlM (removeStep entryId) (updatedInit payload, false))
    if !found then Proc.fail .notFound else vaultSetPayloadModel updated

def vaultEntryAdd (entry : Entry) (failIfExists : Bool) : Vault Unit := do
  if !validEntryId entry.id then Proc.fail .invalidParam
  else do
    let payload ← vaultGetPayloadModel
    let found := payload.entries.any (·.id = entry.id)
    if found && failIfExists then Proc.fail .alreadyExists
    else if found then vaultEntryUpdate entry.id entry
    else do
      let payload ← liftVault (payloadAppendEntry payload entry)
      vaultSetPayloadModel payload

end Hiya.Pm
