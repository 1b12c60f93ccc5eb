import Hiya.Cbor.Decoder
import Hiya.Fido2.Context

/-! The request parsers of `bio_fido2_credential.c`. Keys may stand in any order
and may repeat; a later one overwrites what an earlier one left, and a value that
is skipped is skipped without a look at the result. -/

namespace Hiya.Fido2
open Library Cbor

abbrev Parse := Proc Decoder Status

section
variable {α : Type}

def nextItem : Parse Item := decodeNext.orFail .invalidCbor

def skipValue (acc : α) : Parse α := do
  skip.ignore
  pure acc

/-- Pairs whose keys are texts; the value of any other key is skipped. -/
def parseTextPairs (field : Bytes → α → Parse α) (count : Nat) (acc : α) : Parse α :=
  Proc.repeatWith count (fun acc => do
    match ← nextItem with
    | .tstr key => field key acc
    | _ => skipValue acc) acc

def parseTextMap (field : Bytes → α → Parse α) (acc : α) : Parse α := do
  let count ← decodeMap.orFail .invalidCbor
  parseTextPairs field count acc

def parseUintMap (field : UInt64 → α → Parse α) (acc : α) : Parse α := do
  let count ← decodeMap.orFail .invalidCbor
  Proc.repeatWith count (fun acc => do
    let key ← decodeUint.orFail .invalidCbor
    field key acc) acc

end

def uintValue : Parse UInt64 := decodeUint.orFail .invalidCbor

def tstrValue : Parse Bytes := do
  match ← nextItem with
  | .tstr data => pure data
  | _ => Proc.fail .unexpectedType

def bstrValue : Parse Bytes := do
  match ← nextItem with
  | .bstr data => pure data
  | _ => Proc.fail .unexpectedType

def clientDataHashValue : Parse (Buf 32) := do
  match ← nextItem with
  | .bstr data => if exact : data.length = 32 then pure (.ofBytes data exact) else Proc.fail .unexpectedType
  | _ => Proc.fail .unexpectedType

def pinUvAuthParamValue : Parse (Blob 32) := do
  match ← nextItem with
  | .bstr data => if data.length < 16 then Proc.fail .unexpectedType else pure (.ofSlice 32 data)
  | _ => Proc.fail .unexpectedType

def rpIdText (data : Bytes) : CText maxRpIdLen := .ofSlice _ maxRpIdLen_pos data

def nameText (data : Bytes) : CText maxUserNameLen := .ofSlice _ maxUserNameLen_pos data

section
variable (crypto : Crypto)

def rpField (key : Bytes) (rp : Rp) : Parse Rp :=
  if key = ascii "id" then do pure { rp with id := rpIdText (← tstrValue) }
  else if key = ascii "name" then do pure { rp with name := rpIdText (← tstrValue) }
  else skipValue rp

def parseRpEntity (rp : Rp) : Parse Rp := do
  let rp ← parseTextMap rpField rp
  pure { rp with idHash := crypto.sha256 rp.id.bytes }

end

def userField (key : Bytes) (user : User) : Parse User :=
  if key = ascii "id" then do pure { user with id := .ofSlice _ (← bstrValue) }
  else if key = ascii "name" then do pure { user with name := nameText (← tstrValue) }
  else if key = ascii "displayName" then do pure { user with displayName := nameText (← tstrValue) }
  else skipValue user

def parseUserEntity (user : User) : Parse User := parseTextMap userField user

/-- One entry of `pubKeyCredParams`: the algorithm and the sixteen bytes of `type`. -/
structure PubkeyParam where
  alg : Int
  type : Bytes

def PubkeyParam.zero : PubkeyParam := { alg := 0, type := List.replicate 16 0 }

/-- The cast to `int32_t`. -/
def int32 (value : Int) : Int := value.bmod 4294967296

def pubkeyParamField (key : Bytes) (param : PubkeyParam) : Parse PubkeyParam :=
  if key = ascii "alg" then do
    match ← nextItem with
    | .negint value => pure { param with alg := int32 value }
    | .uint value => pure { param with alg := int32 value.toNat }
    | _ => pure param
  else if key = ascii "type" then do
    match ← nextItem with
    -- at most 15 bytes are copied over what the buffer held before
    | .tstr data => pure { param with type := data.take 15 ++ param.type.drop (min 15 data.length) }
    | _ => pure param
  else skipValue param

def coseAlgEs256 : Int := -7

def PubkeyParam.isEs256 (param : PubkeyParam) : Bool :=
  param.alg = coseAlgEs256 ∧ param.type.takeWhile (· ≠ 0) = ascii "public-key"

/-- Read the algorithms a party accepts; one entry that names ES256 is enough. -/
def parsePubKeyCredParams (supported : Bool) : Parse Bool := do
  let count ← decodeArray.orFail .invalidCbor
  Proc.repeatWith count (fun supported => do
    let param ← parseTextMap pubkeyParamField .zero
    pure (supported || param.isEs256)) supported

/-- Where credential descriptors are collected: whether the next descriptor is
still read, and how one id is stored. -/
structure DescriptorList (α : Type) where
  enter : α → Option α
  store : α → CredentialId → Option α

/-- The sixteen slots of an exclude or allow list and how many are used. -/
structure IdList where
  ids : List CredentialId
  bounded : ids.length ≤ maxAllowList
  deriving DecidableEq

def IdList.empty : IdList := ⟨[], Nat.zero_le _⟩

/-- The program's list. Whether it is full is asked once for each descriptor, not
for each id; an id stored at index 16 goes outside the array. -/
def idSlots : DescriptorList IdList where
  enter list := if list.ids.length ≥ maxAllowList then none else some list
  store list id :=
    if room : list.ids.length < maxAllowList then some ⟨list.ids ++ [id], by rw [List.length_append]; exact room⟩
    else none

/-- A request being read, and the descriptors collected from it so far. -/
structure Scan (α : Type) where
  dec : Decoder
  list : α

abbrev Collect (α : Type) := Proc (Scan α) Status

section
variable {α β : Type} (sink : DescriptorList α)

def Scan.putDec (dec : Decoder) (scan : Scan α) : Scan α := { scan with dec }

def Scan.putList (list : α) (scan : Scan α) : Scan α := { scan with list }

def onDec (body : Parse β) : Collect α β := Proc.zoom Scan.dec Scan.putDec body

def storeId (id : CredentialId) : Collect α Unit := do
  let scan ← Proc.get
  match sink.store scan.list id with
  | some list => Proc.modify (Scan.putList list)
  | none => Proc.fail .fault

def descriptorField (key : Bytes) : Collect α Unit :=
  if key = ascii "id" then do
    match ← onDec nextItem with
    | .bstr data => storeId sink (.ofSlice _ data)
    | _ => pure ()
  else onDec (skipValue ())

def descriptorPair : Collect α Unit := do
  match ← onDec nextItem with
  | .tstr key => descriptorField sink key
  | _ => onDec (skipValue ())

def skipPairs (count : Nat) : Parse Unit :=
  Proc.repeatWith count (fun _ => do
    skip.ignore
    skip.ignore) ()

def parseDescriptor : Collect α Unit := do
  let count ← onDec (decodeMap.orFail .invalidCbor)
  let scan ← Proc.get
  match sink.enter scan.list with
  | none => onDec (skipPairs count)
  | some list => do
    Proc.modify (Scan.putList list)
    Proc.repeatWith count (fun _ => descriptorPair sink) ()

def parseDescriptors : Collect α Unit := do
  let count ← onDec (decodeArray.orFail .invalidCbor)
  Proc.repeatWith count (fun _ => parseDescriptor sink) ()

/-- Read the map of a request that has its descriptors under one key. -/
def readRequest (listKey : UInt64) (field : UInt64 → β → Parse β) (start : β) : Collect α β := do
  let count ← onDec (decodeMap.orFail .invalidCbor)
  Proc.repeatWith count (fun params => do
    let key ← onDec uintValue
    if key = listKey then do
      parseDescriptors sink
      pure params
    else onDec (field key params)) start

end

/-- `make_cred_params_t` without its exclude list, and the flags for the
mandatory keys. -/
structure MakeCredParams where
  clientDataHash : Buf 32
  rp : Rp
  user : User
  es256Supported : Bool
  rkRequested : Bool
  uvRequested : Bool
  pinUvAuthParam : Option (Blob 32)
  pinUvAuthProtocol : UInt32
  credProtect : UInt8
  hmacSecretRequested : Bool
  hasCdh : Bool
  hasRp : Bool
  hasUser : Bool
  hasAlg : Bool
  deriving DecidableEq

def MakeCredParams.zero : MakeCredParams where
  clientDataHash := .zero 32
  rp := .zero
  user := .zero
  es256Supported := false
  rkRequested := false
  uvRequested := false
  pinUvAuthParam := none
  pinUvAuthProtocol := 0
  credProtect := 0
  hmacSecretRequested := false
  hasCdh := false
  hasRp := false
  hasUser := false
  hasAlg := false

def makeCredExtension (key : Bytes) (params : MakeCredParams) : Parse MakeCredParams :=
  if key = ascii "credProtect" then do
    let level ← uintValue
    if level < 1 ∨ level > 3 then Proc.fail .invalidOption
    else pure { params with credProtect := level.toUInt8 }
  else if key = ascii "hmac-secret" then do
    let value ← decodeBool.orFail .invalidCbor
    pure { params with hmacSecretRequested := value }
  else skipValue params

def makeCredOption (key : Bytes) (params : MakeCredParams) : Parse MakeCredParams := do
  let value ← decodeBool.withDefault false
  if key = ascii "rk" then pure { params with rkRequested := value }
  else if key = ascii "uv" then pure { params with uvRequested := value }
  else pure params

def makeCredField (crypto : Crypto) (key : UInt64) (params : MakeCredParams) : Parse MakeCredParams :=
  match key.toNat with
  | 1 => do pure { params with clientDataHash := ← clientDataHashValue, hasCdh := true }
  | 2 => do pure { params with rp := ← parseRpEntity crypto params.rp, hasRp := true }
  | 3 => do pure { params with user := ← parseUserEntity params.user, hasUser := true }
  | 4 => do pure { params with es256Supported := ← parsePubKeyCredParams params.es256Supported, hasAlg := true }
  | 6 => parseTextMap makeCredExtension params
  | 7 => parseTextMap makeCredOption params
  | 8 => do pure { params with pinUvAuthParam := some (← pinUvAuthParamValue) }
  | 9 => do pure { params with pinUvAuthProtocol := (← uintValue).toUInt32 }
  | _ => skipValue params

def makeCredMandatory (params : MakeCredParams) : Except Status Unit :=
  if !params.hasCdh then .error .missingParameter
  else if !params.hasRp then .error .missingParameter
  else if !params.hasUser then .error .missingParameter
  else if !params.hasAlg then .error .missingParameter
  else if !params.es256Supported then .error .unsupportedAlgorithm
  else .ok ()

def excludeListKey : UInt64 := 5

def parseMakeCredParams (crypto : Crypto) (request : Bytes) : Except Status (MakeCredParams × IdList) :=
  match readRequest idSlots excludeListKey (makeCredField crypto) .zero ⟨Decoder.init request, .empty⟩ with
  | (.error problem, _) => .error problem
  | (.ok params, scan) => do
    makeCredMandatory params
    pure (params, scan.list)

/-- `get_assertion_params_t` without its allow list; `rpId` keeps the copied
bytes, zeros included. -/
structure GetAssertionParams where
  clientDataHash : Buf 32
  rpIdHash : Buf 32
  rpId : Blob 255
  uvRequested : Bool
  upRequested : Bool
  pinUvAuthParam : Option (Blob 32)
  pinUvAuthProtocol : UInt32
  hasRp : Bool
  hasCdh : Bool
  deriving DecidableEq

def GetAssertionParams.zero : GetAssertionParams where
  clientDataHash := .zero 32
  rpIdHash := .zero 32
  rpId := .empty _
  uvRequested := false
  upRequested := true
  pinUvAuthParam := none
  pinUvAuthProtocol := 0
  hasRp := false
  hasCdh := false

def getAssertionOption (key : Bytes) (params : GetAssertionParams) : Parse GetAssertionParams := do
  let value ← decodeBool.withDefault false
  if key = ascii "uv" then pure { params with uvRequested := value }
  else if key = ascii "up" then pure { params with upRequested := value }
  else pure params

def getAssertionField (crypto : Crypto) (key : UInt64) (params : GetAssertionParams) : Parse GetAssertionParams :=
  match key.toNat with
  | 1 => do
    let rpId := Blob.ofSlice 255 (← tstrValue)
    pure { params with rpId, rpIdHash := crypto.sha256 rpId.bytes, hasRp := true }
  | 2 => do pure { params with clientDataHash := ← clientDataHashValue, hasCdh := true }
  | 5 => parseTextMap getAssertionOption params
  | 6 => do pure { params with pinUvAuthParam := some (← pinUvAuthParamValue) }
  | 7 => do pure { params with pinUvAuthProtocol := (← uintValue).toUInt32 }
  | _ => skipValue params

def getAssertionMandatory (params : GetAssertionParams) : Except Status Unit :=
  if !params.hasRp then .error .missingParameter
  else if !params.hasCdh then .error .missingParameter
  else .ok ()

def allowListKey : UInt64 := 3

def parseGetAssertionParams (crypto : Crypto) (request : Bytes) :
    Except Status (GetAssertionParams × IdList) :=
  match readRequest idSlots allowListKey (getAssertionField crypto) .zero ⟨Decoder.init request, .empty⟩ with
  | (.error problem, _) => .error problem
  | (.ok params, scan) => do
    getAssertionMandatory params
    pure (params, scan.list)

end Hiya.Fido2
