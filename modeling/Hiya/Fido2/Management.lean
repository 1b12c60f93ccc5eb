import Hiya.Fido2.ClientPin

/-! `bio_fido2_bio_cred.c`: authenticatorBioEnrollment and
authenticatorCredentialManagement. -/

namespace Hiya.Fido2
open Library Cbor

structure BioEnrollParams where
  modality : UInt32
  subCommand : UInt32
  getModality : Bool
  pinProtocol : UInt32
  templateId : Option (Blob 32)
  friendlyName : Option (CText 64)
  pinUvAuthParam : Option (Blob 32)
  timeoutMs : UInt64

def BioEnrollParams.zero : BioEnrollParams where
  modality := 1
  subCommand := 0
  getModality := false
  pinProtocol := 1
  templateId := none
  friendlyName := none
  pinUvAuthParam := none
  timeoutMs := 30000

def bioEnrollSubParam (key : UInt64) (params : BioEnrollParams) : Parse BioEnrollParams :=
  match key.toNat with
  | 0x01 => bstrOr params fun data => { params with templateId := some (.ofSlice _ data) }
  | 0x02 => tstrOr params fun data => { params with friendlyName := some (.ofSlice _ friendlyName_pos data) }
  | 0x03 => do pure { params with timeoutMs := ← uintValue }
  | _ => skipValue params

def bioEnrollField (key : UInt64) (params : BioEnrollParams) : Parse BioEnrollParams :=
  match key.toNat with
  | 0x01 => do pure { params with modality := (← uintValue).toUInt32 }
  | 0x02 => do pure { params with subCommand := (← uintValue).toUInt32 }
  | 0x03 => parseUintMap bioEnrollSubParam params
  | 0x04 => do pure { params with pinProtocol := (← uintValue).toUInt32 }
  | 0x05 => bstrOr params fun data =>
      if data.length ≥ 16 then { params with pinUvAuthParam := some (.ofSlice 32 data) } else params
  | 0x06 => do pure { params with getModality := ← decodeBool.withDefault false }
  | _ => skipValue params

def parseBioEnrollParams (request : Bytes) : Except Status BioEnrollParams :=
  (parseUintMap bioEnrollField .zero (Decoder.init request)).1

abbrev TemplateSlot := Fin maxBioTemplates

def templateSlots : List TemplateSlot := List.finRange maxBioTemplates

def Ctx.putTemplate (slot : TemplateSlot) (template : BioTemplate) (ctx : Ctx) : Ctx :=
  { ctx with bioTemplates := Function.update ctx.bioTemplates slot template }

/-- Drop an enrolment that still waits for samples. -/
def Ctx.dropEnrollment (ctx : Ctx) : Ctx :=
  match ctx.bioEnrollActive with
  | none => ctx
  | some slot =>
    let template := ctx.bioTemplates slot
    if template.inUse ∧ template.samplesRemaining > 0 then
      { ctx.putTemplate slot { template with inUse := false } with
        bioTemplateCount := ctx.bioTemplateCount - 1, bioEnrollActive := none }
    else ctx

section
variable (crypto : Crypto) (env : Env)

/-- Authorisation of the management commands: a token with the permission, or the
callback; without either the command is refused. -/
def authorize (permission : UInt32) (param : Option (Blob 32)) (protocol : UInt32) (message : Bytes)
    (short : Nat) : Command Unit := do
  let ctx ← Proc.get
  match param with
  | some param => do
    Command.check ctx.pin.pinTokenValid .pinAuthInvalid
    Command.check (protocol = 1 ∨ protocol = 2) .pinAuthInvalid
    Command.check (¬ (ctx.pin.pinTokenPermissions ≠ 0 ∧ ctx.pin.pinTokenPermissions &&& permission = 0)) .pinAuthInvalid
    Command.check (¬ param.bytes.length < short) .pinAuthInvalid
    Command.check (paramMatches crypto ctx.pin.pinToken protocol message param) .pinAuthInvalid
  | none =>
    if ctx.verifyUser then Command.check env.userVerified .operationDenied else Proc.fail .pinAuthInvalid

def enrollName (params : BioEnrollParams) (count : Nat) : CText 64 :=
  match params.friendlyName with
  | some name => name
  | none => .ofSlice _ friendlyName_pos (ascii "Finger " ++ ascii (toString (count + 1)))

def enrollBegin (params : BioEnrollParams) (capacity : Nat) : Command Reply := do
  Proc.modify Ctx.dropEnrollment
  let ctx ← Proc.get
  let slot ← Command.need (templateSlots.find? fun slot => !(ctx.bioTemplates slot).inUse) .keyStoreFull
  match env.templateId with
  | none => do
    Proc.modify fun ctx => ctx.putTemplate slot { BioTemplate.zero with templateId := .ofSlice _ (List.replicate 16 0) }
    Proc.fail .other
  | some id => do
    let template : BioTemplate := {
      inUse := true
      templateId := .ofSlice _ id.bytes
      friendlyName := enrollName params ctx.bioTemplateCount
      samplesRemaining := 4
      created := env.time }
    Proc.modify fun ctx => { ctx.putTemplate slot template with
      bioEnrollActive := some slot, bioTemplateCount := ctx.bioTemplateCount + 1 }
    sendItems capacity [encodeMap 3, encodeUint 0x01, encodeBstr id.bytes, encodeUint 0x02, encodeUint 0x00,
      encodeUint 0x03, encodeUint 4]

def enrollCaptureNext (params : BioEnrollParams) (capacity : Nat) : Command Reply := do
  let ctx ← Proc.get
  let slot ← Command.need ctx.bioEnrollActive .noOperationPending
  let template := ctx.bioTemplates slot
  Command.check template.inUse .noOperationPending
  let id ← Command.need params.templateId .missingParameter
  Command.check (id = template.templateId) .invalidOption
  let remaining := if template.samplesRemaining > 0 then template.samplesRemaining - 1 else 0
  Proc.modify fun ctx => { ctx.putTemplate slot { template with samplesRemaining := remaining } with
    bioEnrollActive := if remaining = 0 then none else ctx.bioEnrollActive }
  sendItems capacity [encodeMap 2, encodeUint 0x02, encodeUint 0x00, encodeUint 0x03, encodeUint remaining.toUInt64]

def Ctx.enrolled (ctx : Ctx) : List BioTemplate :=
  (templateSlots.map ctx.bioTemplates).filter fun template => template.inUse && template.samplesRemaining = 0

def enumerateEnrollments (capacity : Nat) : Command Reply := do
  let ctx ← Proc.get
  sendItems capacity ([encodeMap 1, encodeUint 0x01, encodeArray ctx.enrolled.length] ++
    ctx.enrolled.flatMap fun template => [encodeMap 2, encodeUint 0x01, encodeBstr template.templateId.bytes,
      encodeUint 0x02, encodeTstr template.friendlyName.bytes])

def Ctx.findTemplate (ctx : Ctx) (id : Blob 32) : Option TemplateSlot :=
  templateSlots.find? fun slot => (ctx.bioTemplates slot).inUse && (ctx.bioTemplates slot).templateId = id

def setFriendlyName (params : BioEnrollParams) : Command Reply := do
  let id ← Command.need params.templateId .missingParameter
  let friendlyName ← Command.need params.friendlyName .missingParameter
  let ctx ← Proc.get
  let slot ← Command.need (ctx.findTemplate id) .invalidOption
  Proc.modify fun ctx => ctx.putTemplate slot { ctx.bioTemplates slot with friendlyName }
  pure (.data [])

def removeEnrollment (params : BioEnrollParams) : Command Reply := do
  let id ← Command.need params.templateId .missingParameter
  let ctx ← Proc.get
  let slot ← Command.need (ctx.findTemplate id) .invalidOption
  Proc.modify fun ctx => { ctx.putTemplate slot .zero with
    bioEnrollActive := if ctx.bioEnrollActive = some slot then none else ctx.bioEnrollActive
    bioTemplateCount := ctx.bioTemplateCount - 1 }
  pure (.data [])

def bioEnrollCommand (params : BioEnrollParams) (capacity : Nat) : Command Reply :=
  match params.subCommand.toNat with
  | 0x01 => enrollBegin env params capacity
  | 0x02 => enrollCaptureNext params capacity
  | 0x03 => do
    Proc.modify Ctx.dropEnrollment
    pure (.data [])
  | 0x04 => enumerateEnrollments capacity
  | 0x05 => setFriendlyName params
  | 0x06 => removeEnrollment params
  | 0x07 => sendItems capacity [encodeMap 3, encodeUint 0x01, encodeUint 1, encodeUint 0x02, encodeUint 2,
      encodeUint 0x03, encodeUint 5]
  | _ => Proc.fail .invalidCbor

def bioEnrollment (request : Bytes) (capacity : Nat) : Command Reply := do
  let params ← Command.ofExcept (parseBioEnrollParams request)
  Command.check (params.modality = 1) .invalidOption
  if params.getModality then sendItems capacity [encodeMap 1, encodeUint 0x01, encodeUint 1]
  else do
    if params.subCommand ≠ 0x07 then
      authorize crypto env permBioEnrollment params.pinUvAuthParam params.pinProtocol
        [params.modality.toUInt8, params.subCommand.toUInt8] 0
    else pure ()
    bioEnrollCommand env params capacity

end

structure CredMgmtParams where
  subCommand : UInt32
  pinProtocol : UInt32
  rpIdHash : Option (Buf 32)
  credId : Option CredentialId
  user : User
  hasUser : Bool
  pinUvAuthParam : Option (Blob 32)

def CredMgmtParams.zero : CredMgmtParams where
  subCommand := 0
  pinProtocol := 1
  rpIdHash := none
  credId := none
  user := .zero
  hasUser := false
  pinUvAuthParam := none

def credMgmtDescriptor (key : Bytes) (params : CredMgmtParams) : Parse CredMgmtParams :=
  if key = ascii "id" then bstrOr params fun data => { params with credId := some (.ofSlice _ data) }
  else skipValue params

def credMgmtUser (key : Bytes) (params : CredMgmtParams) : Parse CredMgmtParams :=
  if key = ascii "id" then
    bstrOr params fun data => { params with user := { params.user with id := .ofSlice _ data }, hasUser := true }
  else if key = ascii "name" then
    tstrOr params fun data => { params with user := { params.user with name := nameText data } }
  else if key = ascii "displayName" then
    tstrOr params fun data => { params with user := { params.user with displayName := nameText data } }
  else skipValue params

def credMgmtSubParam (key : UInt64) (params : CredMgmtParams) : Parse CredMgmtParams :=
  match key.toNat with
  | 0x01 => bstrOr params fun data =>
      if exact : data.length = 32 then { params with rpIdHash := some (.ofBytes data exact) } else params
  | 0x02 => parseTextMap credMgmtDescriptor params
  | 0x03 => parseTextMap credMgmtUser params
  | _ => skipValue params

def credMgmtField (key : UInt64) (params : CredMgmtParams) : Parse CredMgmtParams :=
  match key.toNat with
  | 0x01 => do pure { params with subCommand := (← uintValue).toUInt32 }
  | 0x02 => parseUintMap credMgmtSubParam params
  | 0x03 => do pure { params with pinProtocol := (← uintValue).toUInt32 }
  | 0x04 => bstrOr params fun data =>
      if data.length ≤ 32 then { params with pinUvAuthParam := some (.ofSlice 32 data) } else params
  | _ => skipValue params

def parseCredMgmtParams (request : Bytes) : Except Status CredMgmtParams :=
  match parseUintMap credMgmtField .zero (Decoder.init request) with
  | (.error problem, _) => .error problem
  | (.ok params, _) => if params.subCommand = 0 then .error .missingParameter else .ok params

def Ctx.findCredential (ctx : Ctx) (id : CredentialId) : Option CredSlot :=
  credSlots.find? fun slot => (ctx.credentials slot).inUse && (ctx.credentials slot).credId = id

section
variable (crypto : Crypto) (env : Env)

def rpItems (rp : Buf 32 × CText maxRpIdLen) : List (Encode Unit) :=
  [encodeUint 0x03, encodeMap 1, encodeText "id", encodeTstr rp.2.bytes, encodeUint 0x04, encodeBstr rp.1.bytes]

/-- The parties of the stored credentials, each once, in the order of the slots. -/
def Ctx.parties (ctx : Ctx) : List (Buf 32 × CText maxRpIdLen) :=
  ctx.inUse.foldl (fun rps cred =>
    if rps.any (fun rp => rp.1 = cred.rp.idHash) then rps else rps ++ [(cred.rp.idHash, cred.rp.id)]) []

def enumerateRpsBegin (capacity : Nat) : Command Reply := do
  let ctx ← Proc.get
  Proc.modify fun ctx => { ctx with credEnum := { ctx.credEnum with rps := ctx.parties } }
  match ctx.parties with
  | [] => Proc.fail .noCredentials
  | first :: rest => do
    Proc.modify fun ctx => { ctx with credEnum := { ctx.credEnum with rpIndex := 1 } }
    sendItems capacity ([encodeMap 3] ++ rpItems first ++ [encodeUint 0x05, encodeUint (UInt64.ofNat (rest.length + 1))])

def enumerateRpsNext (capacity : Nat) : Command Reply := do
  let ctx ← Proc.get
  let rp ← Command.need (ctx.credEnum.rps[ctx.credEnum.rpIndex]?) .noCredentials
  Proc.modify fun ctx => { ctx with credEnum := { ctx.credEnum with rpIndex := ctx.credEnum.rpIndex + 1 } }
  sendItems capacity ([encodeMap 2] ++ rpItems rp)

/-- A key that is not an uncompressed point is left out, though the map counts it. -/
def credentialItems (cred : Credential) : List (Encode Unit) :=
  [encodeUint 0x06] ++ userItems cred.user ++ [encodeUint 0x07] ++ descriptorItems cred.credId ++ [encodeUint 0x08] ++
    (cosePubkeyItems cred.publicKey).getD []

def enumerateCredsBegin (params : CredMgmtParams) (capacity : Nat) : Command Reply := do
  let rpIdHash ← Command.need params.rpIdHash .missingParameter
  let ctx ← Proc.get
  let slots := credSlots.filter fun slot => (ctx.credentials slot).inUse && (ctx.credentials slot).rp.idHash = rpIdHash
  Proc.modify fun ctx => { ctx with credEnum := { ctx.credEnum with credSlots := slots } }
  match slots with
  | [] => Proc.fail .noCredentials
  | first :: rest => do
    Proc.modify fun ctx => { ctx with credEnum := { ctx.credEnum with credIndex := 1 } }
    let cred := ctx.credentials first
    sendItems capacity ([encodeMap 5] ++ credentialItems cred ++
      [encodeUint 0x09, encodeUint (UInt64.ofNat (rest.length + 1)), encodeUint 0x0A,
        encodeUint cred.credProtect.toUInt64])

def enumerateCredsNext (capacity : Nat) : Command Reply := do
  let ctx ← Proc.get
  let slot ← Command.need (ctx.credEnum.credSlots[ctx.credEnum.credIndex]?) .noCredentials
  Proc.modify fun ctx => { ctx with credEnum := { ctx.credEnum with credIndex := ctx.credEnum.credIndex + 1 } }
  let cred := ctx.credentials slot
  sendItems capacity ([encodeMap 4] ++ credentialItems cred ++ [encodeUint 0x0A, encodeUint cred.credProtect.toUInt64])

def deleteCredential (params : CredMgmtParams) : Command Reply := do
  let id ← Command.need params.credId .missingParameter
  let ctx ← Proc.get
  let slot ← Command.need (ctx.findCredential id) .noCredentials
  Proc.modify fun ctx => { ctx.putCredential slot .zero with credentialCount := ctx.credentialCount - 1 }
  (saveCredentials crypto env).ignore
  pure (.data [])

/-- A text replaces the stored one unless it is empty. -/
def updatedUser (update user : User) : User :=
  { user with
    name := if update.name.bytes = [] then user.name else update.name
    displayName := if update.displayName.bytes = [] then user.displayName else update.displayName }

def updateUserInformation (params : CredMgmtParams) : Command Reply := do
  let id ← Command.need (if params.hasUser then params.credId else none) .missingParameter
  let ctx ← Proc.get
  let slot ← Command.need (ctx.findCredential id) .noCredentials
  let cred := ctx.credentials slot
  Command.check (¬ (params.user.id.bytes.length > 0 ∧ params.user.id ≠ cred.user.id)) .invalidOption
  Proc.modify fun ctx => ctx.putCredential slot { cred with user := updatedUser params.user cred.user }
  (saveCredentials crypto env).ignore
  pure (.data [])

def isGetNext (subCommand : UInt32) : Bool := subCommand = 0x03 ∨ subCommand = 0x05

def credMgmtCommand (params : CredMgmtParams) (capacity : Nat) : Command Reply := do
  let ctx ← Proc.get
  match params.subCommand.toNat with
  | 0x01 => sendItems capacity [encodeMap 2, encodeUint 0x01, encodeUint (UInt64.ofNat ctx.credentialCount),
      encodeUint 0x02, encodeUint (UInt64.ofNat (maxCredentialsStored - ctx.credentialCount))]
  | 0x02 => enumerateRpsBegin capacity
  | 0x03 => enumerateRpsNext capacity
  | 0x04 => enumerateCredsBegin params capacity
  | 0x05 => enumerateCredsNext capacity
  | 0x06 => deleteCredential crypto env params
  | 0x07 => updateUserInformation crypto env params
  | _ => Proc.fail .invalidCbor

def credentialManagement (request : Bytes) (capacity : Nat) : Command Reply := do
  let params ← Command.ofExcept (parseCredMgmtParams request)
  if isGetNext params.subCommand then pure ()
  else do
    authorize crypto env permCredentialMgmt params.pinUvAuthParam params.pinProtocol
      (List.replicate 32 0xFF ++ [params.subCommand.toUInt8]) 16
    Proc.modify fun ctx => { ctx with credEnum := { ctx.credEnum with rps := [], credSlots := [] } }
  credMgmtCommand crypto env params capacity

end

end Hiya.Fido2
