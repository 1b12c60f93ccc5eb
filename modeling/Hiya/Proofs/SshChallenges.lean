import Mathlib.Data.List.GetD
import Hiya.Proofs.SshKeys
import Hiya.Ssh.Signing

/-! What the authenticator takes for the hash of a message: the first 32 bytes of it, filled up
with zeros. The requests are read back with the authenticator's own parsers. -/

namespace Hiya.Fido2
open Library Cbor

theorem Sends.fits {items : List (Encode Unit)} {bytes request : Bytes} (sends : Sends items bytes) {capacity : Nat}
    (made : encodeItems capacity items = some request) : request = bytes ∧ bytes.length ≤ capacity := by
  have same := sends.sent made
  refine ⟨same, ?_⟩
  unfold encodeItems at made
  dsimp only at made
  split at made
  · cases made
  · have grown := each_grows sends.grows (Encoder.init capacity)
    have room := grown.fits (Nat.zero_le _)
    rw [grown.room, Option.some.inj made, same] at room
    exact room

end Hiya.Fido2

namespace Hiya.Ssh
open Library Cbor Fido2

/-- The computation consumes exactly `bytes`, and the identifiers in them go to the list. -/
def Gathers {α : Type} (body : Collect IdList α) (start : IdList) (bytes : Bytes) (value : α) (list : IdList) : Prop :=
  ∀ dec rest, dec.error = false → dec.rest = bytes ++ rest → body ⟨dec, start⟩ = (.ok value, ⟨dec.advance bytes.length, list⟩)

namespace Gathers
variable {α β : Type} {start middle list : IdList} {head tail bytes : Bytes} {value : α} {result : β}

protected theorem pure (value : α) (list : IdList) : Gathers (pure value) list [] value list := fun _ _ _ _ => rfl

protected theorem bind {first : Collect IdList α} {next : α → Collect IdList β}
    (begins : Gathers first start head value middle)
    (continues : Gathers (next value) middle tail result list) :
    Gathers (first >>= next) start (head ++ tail) result list := by
  intro dec rest clear here
  rw [List.append_assoc] at here
  rw [Proc.bind_of_ok (begins dec _ clear here), continues (dec.advance head.length) rest clear (Decoder.rest_advance here),
    Decoder.advance_advance, List.length_append]

/-- What reads no identifiers leaves the list alone. -/
protected theorem reads {body : Parse α} (reads : Reads body bytes value) (list : IdList) :
    Gathers (onDec body) list bytes value list := by
  intro dec rest clear here
  unfold onDec Proc.zoom
  dsimp only
  rw [reads dec rest clear here]
  rfl

protected theorem ahead {need : Nat} {body : Parse α} {next : α → Collect IdList β} (begins : ReadsAhead need body head value)
    (enough : need ≤ tail.length) (continues : Gathers (next value) start tail result list) :
    Gathers (onDec body >>= next) start (head ++ tail) result list := by
  intro dec rest clear here
  rw [List.append_assoc] at here
  have room : need ≤ (tail ++ rest).length := by
    rw [List.length_append]
    omega
  have done : onDec body ⟨dec, start⟩ = (.ok value, ⟨dec.advance head.length, start⟩) := by
    unfold onDec Proc.zoom
    dsimp only
    rw [begins dec _ clear here room]
    rfl
  rw [Proc.bind_of_ok done, continues (dec.advance head.length) rest clear (Decoder.rest_advance here),
    Decoder.advance_advance,
    List.length_append]

end Gathers

section
variable {β : Type} {listKey : UInt64} {field : UInt64 → β → Parse β}

def requestPair (listKey : UInt64) (field : UInt64 → β → Parse β) (params : β) : Collect IdList β := do
  let key ← onDec uintValue
  if key = listKey then do
    parseDescriptors idSlots
    pure params
  else onDec (field key params)

variable {params next result : β} {count : Nat} {bytes tail : Bytes} {start middle list : IdList}

theorem gathers_field {key : UInt64} (other : key ≠ listKey) (reads : Reads (field key params) bytes next)
    (rest : Gathers (Proc.repeatWith count (requestPair listKey field) next) start tail result list) :
    Gathers (Proc.repeatWith (count + 1) (requestPair listKey field) params) start (headBytes .uint key.toNat ++
    (bytes ++ tail)) result list := by
  have named : Reads uintValue (headBytes .uint key.toNat) key := (reads_uint key).orFail
  have pair : Gathers (requestPair listKey field params) start (headBytes .uint key.toNat ++ bytes) next start := by
    refine (Gathers.reads named start).bind ?_
    rw [if_neg other]
    exact .reads reads start
  rw [← List.append_assoc]
  exact pair.bind rest

theorem gathers_list {bytes tail : Bytes} (listed : Gathers (parseDescriptors idSlots) start bytes () middle)
    (rest : Gathers (Proc.repeatWith count (requestPair listKey field) params) middle tail result list) :
    Gathers (Proc.repeatWith (count + 1) (requestPair listKey field) params) start (headBytes .uint listKey.toNat ++
    (bytes ++ tail)) result
      list := by
  have named : Reads uintValue (headBytes .uint listKey.toNat) listKey := (reads_uint listKey).orFail
  have pair : Gathers (requestPair listKey field params) start (headBytes .uint listKey.toNat ++ bytes) params middle := by
    refine (Gathers.reads named start).bind ?_
    rw [if_pos rfl, ← List.append_nil bytes]
    exact listed.bind (.pure params middle)
  rw [← List.append_assoc]
  exact pair.bind rest

theorem gathers_request (small : count < 2 ^ 64) (few : count * 2 ≤ bytes.length)
    (pairs : Gathers (Proc.repeatWith count (requestPair listKey field) params) start bytes result list) :
    Gathers (readRequest idSlots listKey field params) start (headBytes .map count ++ bytes) result list :=
  .ahead (readsAhead_map count small).orFail few pairs

end

theorem reads_textPairs {α : Type} {field : Bytes → α → Parse α} {acc next result : α} {count : Nat} {bytes tail : Bytes}
    (key : String) (small : (ascii key).length < 2 ^ 64) (reads : Reads (field (ascii key) acc) bytes next)
    (rest : Reads (parseTextPairs field count next) tail result) :
    Reads (parseTextPairs field (count + 1) acc) ((headBytes .tstr (ascii key).length ++ ascii key) ++ (bytes ++ tail))
    result := by
  have named : Reads nextItem (headBytes .tstr (ascii key).length ++ ascii key) (.tstr (ascii key)) :=
    (reads_nextTstr (ascii key) small).orFail
  rw [← List.append_assoc]
  exact (named.bind reads).bind rest

theorem reads_textMap {α : Type} {field : Bytes → α → Parse α} {acc result : α} {count : Nat} {bytes : Bytes}
    (small : count < 2 ^ 64) (few : count * 2 ≤ bytes.length) (pairs : Reads (parseTextPairs field count acc) bytes result) :
    Reads (parseTextMap field acc) (headBytes .map count ++ bytes) result :=
    (readsAhead_map count small).orFail.bind few pairs

theorem length_headBytes_pos (major : Major) (value : Nat) : 0 < (headBytes major value).length :=
  List.length_pos_iff.mpr (headBytes_ne_nil major value)

theorem length_clientDataHash (message : Bytes) : (clientDataHash message).length = 32 := by
  simp [clientDataHash]

def hashOf (message : Bytes) : Buf 32 := .ofBytes (clientDataHash message) (length_clientDataHash message)

theorem reads_clientDataHash (message : Bytes) :
    Reads clientDataHashValue (headBytes .bstr (clientDataHash message).length ++ clientDataHash message)
    (hashOf message) := by
  have item : Reads nextItem (headBytes .bstr (clientDataHash message).length ++ clientDataHash message)
    (.bstr (clientDataHash message)) :=
    (reads_nextBstr _ (by rw [length_clientDataHash]; decide)).orFail
  refine item.andThen ?_
  dsimp only
  rw [dif_pos (length_clientDataHash message)]
  exact .pure _

theorem reads_tstrValue {data : Bytes} (small : data.length < 2 ^ 64) :
    Reads tstrValue (headBytes .tstr data.length ++ data) data := by
  have item : Reads nextItem (headBytes .tstr data.length ++ data) (.tstr data) := (reads_nextTstr data small).orFail
  exact item.andThen (.pure data)

theorem reads_bstrValue {data : Bytes} (small : data.length < 2 ^ 64) :
    Reads bstrValue (headBytes .bstr data.length ++ data) data := by
  have item : Reads nextItem (headBytes .bstr data.length ++ data) (.bstr data) := (reads_nextBstr data small).orFail
  exact item.andThen (.pure data)

def descriptorListBytes (keyHandle : Bytes) : Bytes :=
  headBytes .array 1 ++ (headBytes .map 2 ++ ((headBytes .tstr (ascii "id").length ++ ascii "id") ++
    ((headBytes .bstr keyHandle.length ++ keyHandle) ++ ((headBytes .tstr (ascii "type").length ++ ascii "type") ++
      ((headBytes .tstr (ascii "public-key").length ++ ascii "public-key") ++ [])))))

def allowListBytes : Bytes → Bytes
  | [] => []
  | keyHandle => headBytes .uint 3 ++ descriptorListBytes keyHandle

def signBytes (message application keyHandle : Bytes) : Bytes :=
  headBytes .map (if keyHandle = [] then 2 else 3) ++
    (headBytes .uint 1 ++ ((headBytes .tstr application.length ++ application) ++
    (headBytes .uint 2 ++ ((headBytes .bstr (clientDataHash message).length ++ clientDataHash message) ++
      allowListBytes keyHandle))))

theorem sends_allowList (keyHandle : Bytes) : Sends (allowListItems keyHandle) (allowListBytes keyHandle) := by
  cases keyHandle with
  | nil => exact .nil
  | cons byte rest => exact .uint 3 (.array 1 (.map 2 (.text "id" (.bstr _ (.text "type" (.text "public-key" .nil))))))

theorem sends_sign (message application keyHandle : Bytes) :
    Sends (signItems message application keyHandle) (signBytes message application keyHandle) :=
  .map _ (.uint 1 (.tstr _ (.uint 2 (.bstr _ (sends_allowList keyHandle)))))

theorem reads_skipText (text : String) (small : (ascii text).length < 2 ^ 64) :
    Reads (skipValue ()) (headBytes .tstr (ascii text).length ++ ascii text) () := by
  have passed : Reads skip (headBytes .tstr (ascii text).length ++ ascii text) () := reads_skipTstr (ascii text) small _
  exact passed.ignore.andThen (.pure ())

def oneId (keyHandle : Bytes) : IdList := ⟨[.ofSlice _ keyHandle], Nat.succ_le_of_lt (by decide : 0 < maxAllowList)⟩

theorem gathers_id {keyHandle : Bytes} (small : keyHandle.length < 2 ^ 64) :
    Gathers (descriptorPair idSlots) .empty ((headBytes .tstr (ascii "id").length ++ ascii "id") ++
    (headBytes .bstr keyHandle.length ++ keyHandle))
      () (oneId keyHandle) := by
  have key : Reads nextItem (headBytes .tstr (ascii "id").length ++ ascii "id") (.tstr (ascii "id")) :=
    (reads_nextTstr _ (by decide)).orFail
  have value : Reads nextItem (headBytes .bstr keyHandle.length ++ keyHandle) (.bstr keyHandle) :=
    (reads_nextBstr keyHandle small).orFail
  refine (Gathers.reads key .empty).bind ?_
  dsimp only [descriptorField]
  rw [if_pos rfl, ← List.append_nil (headBytes .bstr keyHandle.length ++ keyHandle)]
  exact (Gathers.reads value .empty).bind fun _ _ _ _ => rfl

theorem gathers_type : Gathers (descriptorPair idSlots) list ((headBytes .tstr (ascii "type").length ++ ascii "type") ++
    (headBytes .tstr (ascii "public-key").length ++ ascii "public-key")) () list := by
  have key : Reads nextItem (headBytes .tstr (ascii "type").length ++ ascii "type") (.tstr (ascii "type")) :=
    (reads_nextTstr _ (by decide)).orFail
  refine (Gathers.reads key list).bind ?_
  dsimp only [descriptorField]
  rw [if_neg (by decide)]
  exact .reads (reads_skipText "public-key" (by decide)) list

/-- The parser gathers the identifier of the single descriptor. -/
theorem gathers_descriptors {keyHandle : Bytes} (small : keyHandle.length < 2 ^ 64) :
    Gathers (parseDescriptors idSlots) .empty (descriptorListBytes keyHandle) () (oneId keyHandle) := by
  have pairs : Gathers (Proc.repeatWith 2 (fun _ => descriptorPair idSlots) ()) .empty
      (((headBytes .tstr (ascii "id").length ++ ascii "id") ++ (headBytes .bstr keyHandle.length ++ keyHandle)) ++
        (((headBytes .tstr (ascii "type").length ++ ascii "type") ++
          (headBytes .tstr (ascii "public-key").length ++ ascii "public-key")) ++ []))
      () (oneId keyHandle) := (gathers_id small).bind (gathers_type.bind (.pure () _))
  have entered : Gathers (parseDescriptor idSlots) .empty (headBytes .map 2 ++
      (((headBytes .tstr (ascii "id").length ++ ascii "id") ++ (headBytes .bstr keyHandle.length ++ keyHandle)) ++
        (((headBytes .tstr (ascii "type").length ++ ascii "type") ++
          (headBytes .tstr (ascii "public-key").length ++ ascii "public-key")) ++ [])))
      () (oneId keyHandle) := by
    refine .ahead (readsAhead_map 2 (by decide)).orFail ?_ ?_
    · have id := length_headBytes_pos .tstr (ascii "id").length
      have type := length_headBytes_pos .tstr (ascii "type").length
      have value := length_headBytes_pos .bstr keyHandle.length
      have kind := length_headBytes_pos .tstr (ascii "public-key").length
      simp only [List.length_append]
      omega
    · intro dec rest clear here
      exact pairs dec rest clear here
  have listed : Gathers (Proc.repeatWith 1 (fun _ => parseDescriptor idSlots) ()) .empty _ () (oneId keyHandle) :=
    entered.bind (.pure () _)
  unfold descriptorListBytes
  simp only [List.append_assoc, List.append_nil] at listed ⊢
  exact .ahead (readsAhead_array 1 (by decide)).orFail (Nat.le_trans (length_headBytes_pos .map 2) (by simp)) listed

section
variable {crypto : Crypto} {message application keyHandle : Bytes}

def askedParams (crypto : Crypto) (message application : Bytes) : GetAssertionParams :=
  { GetAssertionParams.zero with
    rpId := .ofSlice 255 application
    rpIdHash := crypto.sha256 (Blob.ofSlice 255 application).bytes
    clientDataHash := hashOf message
    hasRp := true
    hasCdh := true }

def partyParamsOf (crypto : Crypto) (application : Bytes) : GetAssertionParams :=
  { GetAssertionParams.zero with
    rpId := .ofSlice 255 application
    rpIdHash := crypto.sha256 (Blob.ofSlice 255 application).bytes
    hasRp := true }

theorem reads_party (small : application.length < 2 ^ 64) :
    Reads (getAssertionField crypto 1 .zero) (headBytes .tstr application.length ++ application)
    (partyParamsOf crypto application) :=
  (reads_tstrValue small).andThen (.pure _)

theorem reads_hash : Reads (getAssertionField crypto 2 (partyParamsOf crypto application))
    (headBytes .bstr (clientDataHash message).length ++ clientDataHash message) (askedParams crypto message application) :=
  (reads_clientDataHash message).andThen (.pure _)

theorem one_of_three : (1 : UInt64) ≠ allowListKey ∧ (2 : UInt64) ≠ allowListKey := by decide

theorem gathers_sign (crypto : Crypto) (message : Bytes) (small : application.length < 2 ^ 64)
    (short : keyHandle.length < 2 ^ 64) :
    ∃ allowed, Gathers (readRequest idSlots allowListKey (getAssertionField crypto) .zero) .empty
      (signBytes message application keyHandle) (askedParams crypto message application) allowed := by
  have positive := length_headBytes_pos
  have one := positive .uint 1
  have two := positive .uint 2
  have name := positive .tstr application.length
  have bytes := positive .bstr (clientDataHash message).length
  unfold signBytes
  cases keyHandle with
  | nil =>
    rw [if_pos rfl]
    have last : Gathers (Proc.repeatWith 1 (requestPair allowListKey (getAssertionField crypto))
      (partyParamsOf crypto application)) .empty _
      (askedParams crypto message application) .empty := gathers_field one_of_three.2 reads_hash (.pure _ _)
    have pairs := gathers_field one_of_three.1 (reads_party small) last
    refine ⟨.empty, gathers_request (by decide) ?_ pairs⟩
    simp only [List.length_append]
    omega
  | cons byte rest =>
    rw [if_neg (List.cons_ne_nil _ _)]
    have list : Gathers (Proc.repeatWith 1 (requestPair allowListKey (getAssertionField crypto))
      (askedParams crypto message application)) .empty _
      (askedParams crypto message application) (oneId (byte :: rest)) := gathers_list (gathers_descriptors short) (.pure _ _)
    rw [List.append_nil] at list
    have last : Gathers (Proc.repeatWith 2 (requestPair allowListKey (getAssertionField crypto))
      (partyParamsOf crypto application)) .empty _
      (askedParams crypto message application) (oneId (byte :: rest)) := gathers_field one_of_three.2 reads_hash list
    have pairs := gathers_field one_of_three.1 (reads_party small) last
    refine ⟨oneId (byte :: rest), gathers_request (by decide) ?_ pairs⟩
    have three := positive .uint allowListKey.toNat
    have array := positive .array 1
    have shape : allowListBytes (byte :: rest) = headBytes .uint allowListKey.toNat ++
      descriptorListBytes (byte :: rest) := rfl
    simp only [shape, descriptorListBytes, List.length_append]
    omega

theorem parse_sign (crypto : Crypto) (message : Bytes) (small : application.length < 2 ^ 64)
    (short : keyHandle.length < 2 ^ 64) :
    ∃ allowed, parseGetAssertionParams crypto (signBytes message application keyHandle) =
    .ok (askedParams crypto message application, allowed) := by
  obtain ⟨allowed, gathers⟩ := gathers_sign crypto message small short
  refine ⟨allowed, ?_⟩
  have done := gathers (Decoder.init (signBytes message application keyHandle)) [] rfl (List.append_nil _).symm
  unfold parseGetAssertionParams
  rw [done]
  rfl

end

def partyBytes (application : Bytes) : Bytes :=
  headBytes .map 1 ++ ((headBytes .tstr (ascii "id").length ++ ascii "id") ++
    ((headBytes .tstr application.length ++ application) ++ []))

def ownerBytes (application : Bytes) (userId : Buf 32) : Bytes :=
  headBytes .map 2 ++ ((headBytes .tstr (ascii "id").length ++ ascii "id") ++
    ((headBytes .bstr userId.bytes.length ++ userId.bytes) ++
    ((headBytes .tstr (ascii "name").length ++ ascii "name") ++
      ((headBytes .tstr (userName application).length ++ userName application) ++ []))))

def algorithmBytes : Bytes :=
  headBytes .map 2 ++ ((headBytes .tstr (ascii "alg").length ++ ascii "alg") ++ (headBytes .negint 6 ++
    ((headBytes .tstr (ascii "type").length ++ ascii "type") ++
      ((headBytes .tstr (ascii "public-key").length ++ ascii "public-key") ++ []))))

def residentBytes : Bytes :=
  headBytes .map 1 ++ ((headBytes .tstr (ascii "rk").length ++ ascii "rk") ++ (headBytes .simple trueValue.toNat ++ []))

def optionBytes (resident : Bool) : Bytes := if resident then headBytes .uint 7 ++ (residentBytes ++ []) else []

def enrollBytes (message application : Bytes) (userId : Buf 32) (resident : Bool) : Bytes :=
  headBytes .map (if resident then 5 else 4) ++
    (headBytes .uint 1 ++ ((headBytes .bstr (clientDataHash message).length ++ clientDataHash message) ++
    (headBytes .uint 2 ++ (partyBytes application ++ (headBytes .uint 3 ++ (ownerBytes application userId ++
      (headBytes .uint 4 ++ ((headBytes .array 1 ++ (algorithmBytes ++ [])) ++ optionBytes resident))))))))

theorem encodeInt_es256 : encodeInt coseAlgEs256 = encodeNegint 6 := rfl

theorem sends_enroll (message application : Bytes) (userId : Buf 32) (resident : Bool) :
    Sends (enrollItems message application userId resident) (enrollBytes message application userId resident) := by
  have options : Sends (if resident then [encodeUint 0x07, encodeMap 1, encodeText "rk", encodeBool true] else [])
    (optionBytes resident) := by
    have sends := Sends.uint 7 (.map 1 (.text "rk" (.bool true .nil)))
    cases resident with
    | false => exact .nil
    | true =>
      simpa only [optionBytes, residentBytes, if_true, UInt64.reduceToNat, List.append_assoc, List.append_nil] using sends
  have sends := Sends.map (if resident then 5 else 4)
    (.uint 1 (.bstr (clientDataHash message) (.uint 2 (.map 1 (.text "id" (.tstr application
    (.uint 3 (.map 2 (.text "id" (.bstr userId.bytes
      (.text "name" (.tstr (userName application) (.uint 4 (.array 1 (.map 2 (.text "alg"
      (.negint 6 (.text "type" (.text "public-key" options)))))))))))))))))))
  unfold enrollItems
  rw [encodeInt_es256]
  simpa only [enrollBytes, partyBytes, ownerBytes, algorithmBytes, UInt64.reduceToNat, List.append_assoc,
    List.append_nil, List.nil_append, List.cons_append] using sends

section
variable {crypto : Crypto} {message application : Bytes}

theorem reads_challenge (params : MakeCredParams) : Reads (makeCredField crypto 1 params)
    (headBytes .bstr (clientDataHash message).length ++ clientDataHash message)
    { params with clientDataHash := hashOf message, hasCdh := true } :=
  (reads_clientDataHash message).andThen (.pure _)

theorem reads_rp (params : MakeCredParams) (small : application.length < 2 ^ 64) :
    Reads (makeCredField crypto 2 params) (partyBytes application)
    { params with
      rp := { params.rp with id := rpIdText application, idHash := crypto.sha256 (rpIdText application).bytes }
      hasRp := true } := by
  have id : Reads (rpField (ascii "id") params.rp) (headBytes .tstr application.length ++ application)
    { params.rp with id := rpIdText application } :=
    (reads_tstrValue small).andThen (.pure _)
  have map : Reads (parseTextMap rpField params.rp) (partyBytes application)
    { params.rp with id := rpIdText application } := by
    refine reads_textMap (by decide) ?_ (reads_textPairs "id" (by decide) id (.pure _))
    have key := length_headBytes_pos .tstr (ascii "id").length
    have value := length_headBytes_pos .tstr application.length
    simp only [List.length_append]
    omega
  have entity : Reads (parseRpEntity crypto params.rp) (partyBytes application)
      { params.rp with id := rpIdText application, idHash := crypto.sha256 (rpIdText application).bytes } :=
        map.andThen (.pure _)
  exact entity.andThen (.pure _)

theorem reads_owner (params : MakeCredParams) (userId : Buf 32) : Reads (makeCredField crypto 3 params)
    (ownerBytes application userId)
    { params with
      user := { params.user with id := .ofSlice _ userId.bytes, name := nameText (userName application) }
      hasUser := true } := by
  have name_short : (userName application).length < 2 ^ 64 := by
    unfold userName
    rw [List.length_take]
    omega
  have id : Reads (userField (ascii "id") params.user) (headBytes .bstr userId.bytes.length ++ userId.bytes)
      { params.user with id := .ofSlice _ userId.bytes } :=
    (reads_bstrValue (by rw [Buf.length_bytes]; decide)).andThen (.pure _)
  have name : Reads (userField (ascii "name") { params.user with id := .ofSlice _ userId.bytes })
      (headBytes .tstr (userName application).length ++ userName application)
      { params.user with id := .ofSlice _ userId.bytes, name := nameText (userName application) } :=
    (reads_tstrValue name_short).andThen (.pure _)
  have map : Reads (parseTextMap userField params.user) (ownerBytes application userId)
      { params.user with id := .ofSlice _ userId.bytes, name := nameText (userName application) } := by
    refine reads_textMap (by decide) ?_ (reads_textPairs "id" (by decide) id
      (reads_textPairs "name" (by decide) name (.pure _)))
    have key := length_headBytes_pos .tstr (ascii "id").length
    have value := length_headBytes_pos .bstr userId.bytes.length
    have second := length_headBytes_pos .tstr (ascii "name").length
    have text := length_headBytes_pos .tstr (userName application).length
    simp only [List.length_append]
    omega
  exact map.andThen (.pure _)

def es256Param : PubkeyParam := { alg := coseAlgEs256, type := (ascii "public-key").take 15 ++ (List.replicate 16 0).drop (min 15 (ascii "public-key").length) }

theorem reads_algorithm (params : MakeCredParams) : Reads (makeCredField crypto 4 params)
    (headBytes .array 1 ++ (algorithmBytes ++ []))
    { params with es256Supported := params.es256Supported || es256Param.isEs256, hasAlg := true } := by
  have alg : Reads (pubkeyParamField (ascii "alg") .zero) (headBytes .negint 6)
    { PubkeyParam.zero with alg := coseAlgEs256 } := by
    have item : Reads nextItem (headBytes .negint 6) (.negint (-1 - ((6 : UInt64).toNat : Int))) :=
      (reads_nextNegint 6 (by decide)).orFail
    exact item.andThen (.pure _)
  have type : Reads (pubkeyParamField (ascii "type") { PubkeyParam.zero with alg := coseAlgEs256 })
      (headBytes .tstr (ascii "public-key").length ++ ascii "public-key") es256Param := by
    have item : Reads nextItem (headBytes .tstr (ascii "public-key").length ++ ascii "public-key")
      (.tstr (ascii "public-key")) :=
      (reads_nextTstr _ (by decide)).orFail
    exact item.andThen (.pure _)
  have map : Reads (parseTextMap pubkeyParamField .zero) algorithmBytes es256Param := by
    refine reads_textMap (by decide) ?_ (reads_textPairs "alg" (by decide) alg
      (reads_textPairs "type" (by decide) type (.pure _)))
    have key := length_headBytes_pos .tstr (ascii "alg").length
    have value := length_headBytes_pos .negint 6
    have second := length_headBytes_pos .tstr (ascii "type").length
    have text := length_headBytes_pos .tstr (ascii "public-key").length
    simp only [List.length_append]
    omega
  have entry : Reads (do
      let param ← parseTextMap pubkeyParamField .zero
      pure (params.es256Supported || param.isEs256)) algorithmBytes
        (params.es256Supported || es256Param.isEs256) := map.andThen (.pure _)
  have entries : Reads (Proc.repeatWith 1 (fun supported => do
      let param ← parseTextMap pubkeyParamField .zero
      pure (supported || param.isEs256)) params.es256Supported) (algorithmBytes ++ [])
        (params.es256Supported || es256Param.isEs256) :=
    entry.bind (.pure _)
  have list : Reads (parsePubKeyCredParams params.es256Supported) (headBytes .array 1 ++ (algorithmBytes ++ []))
      (params.es256Supported || es256Param.isEs256) :=
    (readsAhead_array 1 (by decide)).orFail.bind (Nat.le_trans (length_headBytes_pos .map 2)
      (by simp [algorithmBytes])) entries
  exact list.andThen (.pure _)

theorem reads_resident (params : MakeCredParams) :
    Reads (makeCredField crypto 7 params) residentBytes { params with rkRequested := true } := by
  have rk : Reads (makeCredOption (ascii "rk") params) (headBytes .simple trueValue.toNat)
    { params with rkRequested := true } :=
    (reads_bool true).withDefault.andThen (.pure _)
  refine reads_textMap (by decide) ?_ (reads_textPairs "rk" (by decide) rk (.pure _))
  have key := length_headBytes_pos .tstr (ascii "rk").length
  have value := length_headBytes_pos .simple trueValue.toNat
  simp only [List.length_append]
  omega

def enrolledParams (crypto : Crypto) (message application : Bytes) (userId : Buf 32) : MakeCredParams :=
  { MakeCredParams.zero with
    clientDataHash := hashOf message
    hasCdh := true
    rp := { Rp.zero with id := rpIdText application, idHash := crypto.sha256 (rpIdText application).bytes }
    hasRp := true
    user := { User.zero with id := .ofSlice _ userId.bytes, name := nameText (userName application) }
    hasUser := true
    es256Supported := false || es256Param.isEs256
    hasAlg := true }

theorem not_exclude_list : (1 : UInt64) ≠ excludeListKey ∧ (2 : UInt64) ≠ excludeListKey ∧ (3 : UInt64) ≠ excludeListKey ∧
    (4 : UInt64) ≠ excludeListKey ∧ (7 : UInt64) ≠ excludeListKey := by decide

theorem gathers_option (resident : Bool) (params : MakeCredParams) :
    Gathers (Proc.repeatWith (if resident then 1 else 0) (requestPair excludeListKey (makeCredField crypto)) params)
    .empty (optionBytes resident)
      { params with rkRequested := resident || params.rkRequested } .empty := by
  cases resident with
  | false => exact .pure _ _
  | true => exact gathers_field not_exclude_list.2.2.2.2 (reads_resident params) (.pure _ _)

theorem gathers_enroll (crypto : Crypto) (message : Bytes) (small : application.length < 2 ^ 64) (userId : Buf 32)
    (resident : Bool) :
    Gathers (readRequest idSlots excludeListKey (makeCredField crypto) .zero) .empty
    (enrollBytes message application userId resident)
      { enrolledParams crypto message application userId with rkRequested := resident || false } .empty := by
  have four : Gathers (Proc.repeatWith ((if resident then 1 else 0) + 4)
    (requestPair excludeListKey (makeCredField crypto)) .zero) .empty _
      { enrolledParams crypto message application userId with rkRequested := resident || false } .empty :=
    gathers_field not_exclude_list.1 (reads_challenge _) (gathers_field not_exclude_list.2.1 (reads_rp _ small)
      (gathers_field not_exclude_list.2.2.1 (reads_owner _ userId) (gathers_field not_exclude_list.2.2.2.1 (reads_algorithm _)
        (gathers_option resident _))))
  have count : (if resident then 5 else 4) = (if resident then 1 else 0) + 4 := by cases resident <;> rfl
  unfold enrollBytes
  rw [count]
  refine gathers_request (by cases resident <;> decide) ?_ four
  have hash := length_clientDataHash message
  simp only [List.length_append]
  split <;> omega

theorem parse_enroll (crypto : Crypto) (message : Bytes) (small : application.length < 2 ^ 64) (userId : Buf 32)
    (resident : Bool) :
    parseMakeCredParams crypto (enrollBytes message application userId resident) =
      .ok ({ enrolledParams crypto message application userId with rkRequested := resident || false }, .empty) := by
  have done := gathers_enroll crypto message small userId resident
    (Decoder.init (enrollBytes message application userId resident)) [] rfl (List.append_nil _).symm
  unfold parseMakeCredParams
  rw [done]
  rfl

end

def signedHash (crypto : Crypto) (request : Bytes) : Option Bytes :=
  (parseGetAssertionParams crypto request).toOption.map fun parsed => parsed.1.clientDataHash.bytes

def enrolledHash (crypto : Crypto) (request : Bytes) : Option Bytes :=
  (parseMakeCredParams crypto request).toOption.map fun parsed => parsed.1.clientDataHash.bytes

/-- A request that is sent for a message, and the hash that arrives. -/
inductive Arrives (crypto : Crypto) (message : Bytes) : Option Bytes → Prop
  | sign {application keyHandle request : Bytes}
    (sent : encodeItems maxMsg (signItems message application keyHandle) = some request) :
    Arrives crypto message (signedHash crypto request)
  | enroll {application request : Bytes} {userId : Buf 32} {resident : Bool}
    (sent : encodeItems maxMsg (enrollItems message application userId resident) = some request) :
    Arrives crypto message (enrolledHash crypto request)

theorem Arrives.eq {crypto : Crypto} {message : Bytes} {hash : Option Bytes} (arrives : Arrives crypto message hash) :
    hash = some (clientDataHash message) := by
  have far : maxMsg < 2 ^ 64 := by decide
  cases arrives with
  | @sign application keyHandle request sent =>
    obtain ⟨rfl, short⟩ := (sends_sign message application keyHandle).fits sent
    have parts : application.length < 2 ^ 64 ∧ keyHandle.length < 2 ^ 64 := by
      simp only [signBytes, List.length_append] at short
      refine ⟨by omega, ?_⟩
      cases keyHandle with
      | nil => decide
      | cons byte rest =>
        have shape : allowListBytes (byte :: rest) = headBytes .uint 3 ++ descriptorListBytes (byte :: rest) := rfl
        simp only [shape, descriptorListBytes, List.length_append] at short
        omega
    obtain ⟨allowed, parsed⟩ := parse_sign crypto message parts.1 parts.2
    unfold signedHash
    rw [parsed]
    exact congrArg some (Buf.bytes_ofBytes _ _)
  | @enroll application request userId resident sent =>
    obtain ⟨rfl, short⟩ := (sends_enroll message application userId resident).fits sent
    have small : application.length < 2 ^ 64 := by
      simp only [enrollBytes, partyBytes, List.length_append] at short
      omega
    unfold enrolledHash
    rw [parse_enroll crypto message small]
    exact congrArg some (Buf.bytes_ofBytes _ _)

/-- The hash of a message is its first 32 bytes, where a missing one counts as a zero. -/
theorem clientDataHash_eq_iff (first second : Bytes) :
    clientDataHash first = clientDataHash second ↔ ∀ place < 32, first.getD place 0 = second.getD place 0 := by
  have byte (message : Bytes) {place : Nat} (inside : place < 32) : (clientDataHash message)[place]? =
    some (message.getD place 0) := by
    unfold clientDataHash
    rw [List.getElem?_take_of_lt inside]
    by_cases here : place < message.length
    · simp [List.getElem?_append_left here, here]
    · have beyond := Nat.le_of_not_lt here
      have filled : place - message.length < 32 := by omega
      rw [List.getElem?_append_right beyond, List.getElem?_replicate, if_pos filled, List.getD_eq_default _ _ beyond]
  constructor
  · intro same place inside
    have both := congrArg (fun hash => hash[place]?) same
    simp only [byte first inside, byte second inside, Option.some.injEq] at both
    exact both
  · intro same
    refine List.ext_getElem? fun place => ?_
    by_cases inside : place < 32
    · rw [byte first inside, byte second inside, same place inside]
    · rw [List.getElem?_eq_none (by rw [length_clientDataHash]; omega),
        List.getElem?_eq_none (by rw [length_clientDataHash]; omega)]

/-- The hashes that arrive for two messages differ exactly when the messages differ in their first
32 bytes. Two messages of that length are never taken for each other. -/
theorem hashes_agree_iff {crypto : Crypto} {first second : Bytes} {one other : Option Bytes}
    (arrives : Arrives crypto first one)
    (again : Arrives crypto second other) :
    one.isSome ∧ other.isSome ∧ (one = other ↔ ∀ place < 32, first.getD place 0 = second.getD place 0) ∧
      (first.length = 32 → second.length = 32 → (one = other ↔ first = second)) := by
  rw [arrives.eq, again.eq, Option.some.injEq, clientDataHash_eq_iff]
  refine ⟨rfl, rfl, Iff.rfl, fun whole length => ?_⟩
  rw [← clientDataHash_eq_iff]
  unfold clientDataHash
  rw [List.take_left' whole, List.take_left' length]

/-- A request for a signature by the key without a handle. -/
def plainRequest (message : Bytes) : Option Bytes := encodeItems maxMsg (signItems message (ascii "ssh:") [])

theorem plainRequest_sent : (plainRequest []).isSome ∧ (plainRequest [0]).isSome ∧ (plainRequest [1]).isSome :=
    by decide +kernel

theorem hashes_agree_iff_plain : ∃ one other, Arrives tagCipher [] one ∧ Arrives tagCipher [1] other ∧ one ≠ other := by
  obtain ⟨first, sent⟩ := Option.isSome_iff_exists.mp plainRequest_sent.1
  obtain ⟨second, again⟩ := Option.isSome_iff_exists.mp plainRequest_sent.2.2
  refine ⟨_, _, .sign sent, .sign again, fun same => ?_⟩
  have agree := (hashes_agree_iff (.sign sent : Arrives tagCipher [] _)
    (.sign again : Arrives tagCipher [1] _)).2.2.1.mp same 0 (by decide)
  cases agree

/-- The empty message and a zero have the same hash. -/
theorem padded_messages_collide : ¬ ∀ (crypto : Crypto) (first second : Bytes) (one other : Option Bytes), first ≠ second →
    Arrives crypto first one → Arrives crypto second other → one ≠ other := by
  intro differ
  obtain ⟨first, sent⟩ := Option.isSome_iff_exists.mp plainRequest_sent.1
  obtain ⟨second, again⟩ := Option.isSome_iff_exists.mp plainRequest_sent.2.1
  refine differ tagCipher [] [0] _ _ (by decide) (.sign sent) (.sign again) ?_
  rw [(Arrives.sign sent).eq, (Arrives.sign again).eq]
  rfl

end Hiya.Ssh
