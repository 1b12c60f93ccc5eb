import Hiya.Proofs.ResponseBytes
import Hiya.Ssh.SecurityKey

/-! What enrolment of an SSH key takes out of a registration: the credential id, and the
COSE key with all that stands behind it. -/

namespace Hiya.Cbor
open Library

theorem reads_skipBstr (data : Bytes) (small : data.length < 2 ^ 64) (room : Nat) :
    Reads (skipItemDepth (room + 1)) (headBytes .bstr data.length ++ data) () := by
  unfold skipItemDepth
  exact (reads_nextBstr data small).andThen (.pure ())

theorem reads_skipTstr (data : Bytes) (small : data.length < 2 ^ 64) (room : Nat) :
    Reads (skipItemDepth (room + 1)) (headBytes .tstr data.length ++ data) () := by
  unfold skipItemDepth
  exact (reads_nextTstr data small).andThen (.pure ())

theorem reads_nextNegint (value : UInt64) (small : value.toNat ≤ int64Max) :
    Reads decodeNext (headBytes .negint value.toNat) (.negint (-1 - (value.toNat : Int))) := by
  have head := reads_decHead .negint value.toNat value.toNat_lt
  rw [UInt64.ofNat_toNat] at head
  refine head.andThen ?_
  dsimp only
  rw [if_pos small]
  exact .pure _

theorem reads_skipNegint (value : UInt64) (small : value.toNat ≤ int64Max) (room : Nat) :
    Reads (skipItemDepth (room + 1)) (headBytes .negint value.toNat) () := by
  unfold skipItemDepth
  exact (reads_nextNegint value small).andThen (.pure ())

theorem reads_skipUint (value : UInt64) (room : Nat) : Reads (skipItemDepth (room + 1)) (headBytes .uint value.toNat) () := by
  unfold skipItemDepth
  exact (reads_nextUint value).andThen (.pure ())

theorem reads_skipMap {room count : Nat} {bytes : Bytes} (small : count < 2 ^ 64) (few : count * 2 ≤ bytes.length)
    (pairs : Reads (Proc.repeatWith count (fun _ => do skipItemDepth room; skipItemDepth room) ()) bytes ()) :
    Reads (skipItemDepth (room + 1)) (headBytes .map count ++ bytes) () := by
  unfold skipItemDepth
  rw [decodeNext_eq, bind_assoc]
  refine (reads_decHead .map count small).bind ?_
  simp only [decodeItem, toNat_ofNat small, bind_assoc]
  exact reads_counted few pairs

end Hiya.Cbor

namespace Hiya.Ssh
open Library Cbor Fido2

theorem reads_passOver {α : Type} {bytes : Bytes} (acc : α) (passed : Reads skip bytes ()) : Reads (passOver acc) bytes acc :=
  (passed.ignore).andThen (.pure acc)

theorem reads_attestation (der : Bytes) (small : der.length < 2 ^ 64) :
    Reads skip (headBytes .map 2 ++ ((headBytes .tstr 3 ++ ascii "alg") ++
    (headBytes .negint 6 ++ ((headBytes .tstr 3 ++ ascii "sig") ++
      ((headBytes .bstr der.length ++ der) ++ []))))) () := by
  refine reads_skipMap (by decide) ?_ ?_
  · simp only [List.length_append]
    have alg : (ascii "alg").length = 3 := by decide
    have sig : (ascii "sig").length = 3 := by decide
    omega
  · have first : Reads (do skipItemDepth maxDepth; skipItemDepth maxDepth)
      ((headBytes .tstr 3 ++ ascii "alg") ++ headBytes .negint 6) () :=
      (reads_skipTstr (ascii "alg") (by decide) 15).bind (reads_skipNegint 6 (by decide) 15)
    have second : Reads (do skipItemDepth maxDepth; skipItemDepth maxDepth) ((headBytes .tstr 3 ++ ascii "sig") ++
        (headBytes .bstr der.length ++ der)) () :=
      (reads_skipTstr (ascii "sig") (by decide) 15).bind (reads_skipBstr der small 15)
    have both : Reads (Proc.repeatWith 2 (fun _ => do skipItemDepth maxDepth; skipItemDepth maxDepth) ()) _ () :=
      first.bind (second.bind (.pure ()))
    rw [List.append_assoc, List.append_assoc] at both
    exact both

theorem reads_findAuthData {authData der : Bytes} (small : authData.length < 2 ^ 64) (short : der.length < 2 ^ 64) :
    Reads findAuthData (registrationBytes authData der) (some authData) := by
  have first : Reads (authDataPair none) (headBytes .uint 1 ++ (headBytes .tstr 6 ++ ascii "packed")) none :=
    (reads_nextUint 1).bind (reads_passOver none (reads_skipTstr (ascii "packed") (by decide) _))
  have second : Reads (authDataPair none) (headBytes .uint 2 ++ (headBytes .bstr authData.length ++ authData))
    (some authData) :=
    (reads_nextUint 2).bind ((reads_bstr authData small).map some)
  have third : Reads (authDataPair (some authData)) (headBytes .uint 3 ++ _) (some authData) :=
    (reads_nextUint 3).bind (reads_passOver (some authData) (reads_attestation der short))
  have rounds : Reads (Proc.repeatTill 3 authDataPair none : Decode _) _ (some authData) :=
    first.round (second.round (third.round (.rounds (some authData))))
  rw [List.append_assoc, List.append_assoc, List.append_nil] at rounds
  refine (readsAhead_map 3 (by decide)).bind ?_ rounds
  simp only [List.length_append]
  have packed : (ascii "packed").length = 6 := by decide
  omega

/-- An uncompressed point, the only kind that is written as a COSE key. -/
def IsPoint (pubkey : Buf 65) : Prop := (sliceAt pubkey.bytes 0 1).bytes = [0x04]

theorem cosePubkeyItems_isSome {pubkey : Buf 65} : (∃ items, cosePubkeyItems pubkey = some items) ↔ IsPoint pubkey := by
  unfold cosePubkeyItems IsPoint
  by_cases point : (sliceAt pubkey.bytes 0 1).bytes = [0x04]
  · rw [if_neg (not_not_intro point)]
    exact ⟨fun _ => point, fun _ => ⟨_, rfl⟩⟩
  · rw [if_pos point]
    constructor
    · rintro ⟨items, wrong⟩
      cases wrong
    · exact fun wrong => absurd wrong point

theorem attestedData_eq {cap used : Nat} {credId : CredentialId} {pubkey : Buf 65} {data : Bytes}
    (made : attestedData cap used credId pubkey = some data) :
    IsPoint pubkey ∧ data = aaguid ++ (beBytes 2 credId.bytes.length ++ (credId.bytes ++ coseKeyBytes pubkey)) := by
  unfold attestedData at made
  dsimp only at made
  split at made
  · cases made
  · obtain ⟨items, shaped, made⟩ := Option.bind_eq_some_iff.mp made
    obtain ⟨key, encoded, made⟩ := Option.bind_eq_some_iff.mp made
    rw [(sends_coseKey shaped).sent encoded] at made
    cases made
    refine ⟨cosePubkeyItems_isSome.mp ⟨items, shaped⟩, ?_⟩
    simp only [List.append_assoc]

theorem makeCredentialFlags_attested (params : MakeCredParams) (uv : Bool) :
    makeCredentialFlags params uv &&& flagAt ≠ 0 := by
  have all : ∀ uv extended : Bool,
      (flagUp ||| flagAt ||| (if uv then flagUv else 0) ||| (if extended then flagEd else 0)) &&& flagAt ≠ 0 := by decide
  unfold makeCredentialFlags
  by_cases extended : params.credProtect ≠ 0 ∨ params.hmacSecretRequested
  · rw [if_pos extended]
    exact all uv true
  · rw [if_neg extended]
    exact all uv false

theorem buildAuthData_attested {cap : Nat} {rpIdHash : Buf 32} {flags : UInt8} {signCount : UInt32}
    {credId : CredentialId} {pubkey : Buf 65}
    {data : Bytes} (attested : flags &&& flagAt ≠ 0)
    (built : buildAuthData cap rpIdHash flags signCount (some (credId, pubkey)) = some data) :
    IsPoint pubkey ∧ data = (rpIdHash.bytes ++ [flags] ++ beBytes 4 signCount.toNat) ++
      (aaguid ++ (beBytes 2 credId.bytes.length ++ (credId.bytes ++ coseKeyBytes pubkey))) := by
  unfold buildAuthData at built
  dsimp only at built
  by_cases full : (rpIdHash.bytes ++ [flags] ++ beBytes 4 signCount.toNat).length > cap
  · rw [if_pos full] at built
    cases built
  · rw [if_neg full, if_neg attested] at built
    obtain ⟨rest, made, same⟩ := Option.map_eq_some_iff.mp built
    obtain ⟨point, shape⟩ := attestedData_eq made
    exact ⟨point, by rw [← same, shape]⟩

/-- Authenticator data of a registration: 53 bytes, the id with its length, the key, and
what the extensions add. -/
theorem registrationData_eq {params : MakeCredParams} {uv : Bool} {signCount : UInt32} {credId : CredentialId}
    {pubkey : Buf 65}
    {data : Bytes} (built : registrationData params uv signCount credId pubkey = some data) :
    IsPoint pubkey ∧ ∃ extensions, data =
    (params.rp.idHash.bytes ++ ([makeCredentialFlags params uv] ++ (beBytes 4 signCount.toNat ++ aaguid))) ++
      (beBytes 2 credId.bytes.length ++ (credId.bytes ++ (coseKeyBytes pubkey ++ extensions))) := by
  obtain ⟨front, made, built⟩ := Option.bind_eq_some_iff.mp built
  obtain ⟨point, shape⟩ := buildAuthData_attested (makeCredentialFlags_attested params uv) made
  refine ⟨point, ?_⟩
  split at built
  · obtain ⟨extensions, encoded, built⟩ := Option.bind_eq_some_iff.mp built
    cases built
    refine ⟨extensions, ?_⟩
    rw [shape]
    simp only [List.append_assoc]
  · cases built
    refine ⟨[], ?_⟩
    rw [shape, List.append_nil]
    simp only [List.append_assoc]

/-- Fifty-three bytes, an id with its length, and something behind it. -/
theorem attestedParts_append {front credId key : Bytes} (long : front.length = 53) (flagged : front.getD 32 0 &&& 0x40 ≠ 0)
    (small : credId.length < 65536) (more : key ≠ []) :
    attestedParts (front ++ (beBytes 2 credId.length ++ (credId ++ key))) = some (credId, key) := by
  have some_key : 0 < key.length := List.length_pos_iff.mpr more
  have size : (front ++ (beBytes 2 credId.length ++ (credId ++ key))).length = 55 + credId.length + key.length := by
    simp only [List.length_append, beBytes_length, long]
    omega
  have flags : (front ++ (beBytes 2 credId.length ++ (credId ++ key))).getD 32 0 = front.getD 32 0 := by
    rw [List.getD_eq_getElem?_getD, List.getD_eq_getElem?_getD, List.getElem?_append_left (by omega)]
  have counted : beNat (((front ++ (beBytes 2 credId.length ++ (credId ++ key))).drop 53).take 2) = credId.length := by
    rw [← long, List.drop_left, List.take_left' (beBytes_length _ _), beNat_beBytes, Nat.mod_eq_of_lt (by omega)]
  have behind : (front ++ (beBytes 2 credId.length ++ (credId ++ key))).drop 55 = credId ++ key := by
    rw [← List.append_assoc]
    apply List.drop_left'
    rw [List.length_append, beBytes_length, long]
  unfold attestedParts
  rw [flags, counted, size, if_pos ⟨by omega, flagged⟩]
  dsimp only
  rw [if_pos (by omega), behind, List.take_left, ← List.drop_drop, behind, List.drop_left]

theorem need_eq_ok {α : Type} {value : Option α} {problem : Status} {ctx reached : Ctx} {found : α} :
    Command.need value problem ctx = (.ok found, reached) ↔ value = some found ∧ ctx = reached := by
  cases value with
  | none => simp [Command.need]
  | some value => simp [Command.need]

theorem ofExcept_eq_ok {α : Type} {outcome : Except Status α} {ctx reached : Ctx} {found : α} :
    Command.ofExcept outcome ctx = (.ok found, reached) ↔ outcome = .ok found ∧ ctx = reached := by
  cases outcome with
  | error problem => simp [Command.ofExcept]
  | ok value => simp [Command.ofExcept]

def Registers (crypto : Crypto) (env : Env) (wrapKey : Option (Buf 32)) (capacity : Nat) (reply : Reply) : Prop :=
  ∃ params uv signCount keypair credId authData signature der,
    drawCredentialId crypto env wrapKey params.rp.idHash = some (keypair, credId) ∧
      registrationData params uv signCount credId keypair.publicKey = some authData ∧ ecdsaSigToDer signature = some der ∧
        encodeItems capacity (registrationItems authData der) = some (payload reply)

theorem sendRegistration_sends {credId : CredentialId} {signCount : UInt32} {authData : Bytes} {signature : Buf 64}
    {capacity : Nat}
    {ctx after : Ctx} {reply : Reply} (done : sendRegistration credId signCount authData signature capacity ctx =
    (.ok reply, after)) :
    ∃ der, ecdsaSigToDer signature = some der ∧
    encodeItems capacity (registrationItems authData der) = some (payload reply) := by
  obtain ⟨der, _, shaped, done⟩ := Proc.bind_eq_ok.mp done
  obtain ⟨bytes, _, encoded, done⟩ := Proc.bind_eq_ok.mp done
  cases done
  exact ⟨der, (need_eq_ok.mp shaped).1, (need_eq_ok.mp encoded).1⟩

theorem register_registers {crypto : Crypto} {env : Env} {params : MakeCredParams} {uv : Bool} {keypair : Keypair}
    {credId : CredentialId}
    {hmacSecret : Option (Buf 32)} {capacity : Nat} {wrapKey : Option (Buf 32)} {ctx after : Ctx} {reply : Reply}
    (drawn : drawCredentialId crypto env wrapKey params.rp.idHash = some (keypair, credId))
    (done : register crypto env params uv keypair credId hmacSecret capacity ctx = (.ok reply, after)) :
    Registers crypto env wrapKey capacity reply := by
  obtain ⟨_, _, -, done⟩ := Proc.bind_eq_ok.mp done
  obtain ⟨_, _, -, done⟩ := Proc.bind_eq_ok.mp done
  obtain ⟨authData, _, made, done⟩ := Proc.bind_eq_ok.mp done
  obtain ⟨signature, _, -, done⟩ := Proc.bind_eq_ok.mp done
  have sent : ∃ der, ecdsaSigToDer signature = some der ∧
    encodeItems capacity (registrationItems authData der) = some (payload reply) := by
    by_cases resident : params.rkRequested
    · rw [if_pos resident] at done
      obtain ⟨_, _, -, done⟩ := Proc.bind_eq_ok.mp done
      exact sendRegistration_sends done
    · rw [if_neg resident] at done
      exact sendRegistration_sends done
  obtain ⟨der, shaped, encoded⟩ := sent
  exact ⟨params, uv, _, keypair, credId, authData, signature, der, drawn, (need_eq_ok.mp made).1, shaped, encoded⟩

theorem makeCredential_registers {crypto : Crypto} {env : Env} {request : Bytes} {capacity : Nat} {ctx after : Ctx}
    {reply : Reply}
    (done : makeCredential crypto env request capacity ctx = (.ok reply, after)) :
    Registers crypto env ctx.wrapKey capacity reply := by
  obtain ⟨⟨params, excludeList⟩, _, parsed, done⟩ := Proc.bind_eq_ok.mp done
  obtain ⟨-, rfl⟩ := ofExcept_eq_ok.mp parsed
  obtain ⟨_, _, got, done⟩ := Proc.bind_eq_ok.mp done
  cases got
  dsimp only at done
  by_cases excluded : excludeList.ids.any (ctx.excludes crypto params.rp.idHash)
  · rw [if_pos excluded] at done
    cases done
  · rw [if_neg excluded] at done
    obtain ⟨uv, _, -, done⟩ := Proc.bind_eq_ok.mp done
    obtain ⟨⟨keypair, credId⟩, _, drawn, done⟩ := Proc.bind_eq_ok.mp done
    obtain ⟨hmacSecret, _, -, done⟩ := Proc.bind_eq_ok.mp done
    exact register_registers (need_eq_ok.mp drawn).1 done

/-! A command byte of the middleware selects its command. -/

theorem process_makeCredential (crypto : Crypto) (env : Env) (body : Bytes) (capacity : Nat) (ctx : Ctx) :
    process crypto { cmd := cmdMakeCredential, body, capacity, env } ctx =
    makeCredential crypto env body capacity ctx.dropAssertion := rfl

theorem process_credentialMgmt (crypto : Crypto) (env : Env) (body : Bytes) (capacity : Nat) (ctx : Ctx) :
    process crypto { cmd := cmdCredentialMgmt, body, capacity, env } ctx =
      credentialManagement crypto env body capacity ctx.dropAssertion := rfl

theorem fido2SendRecv_eq_ok {crypto : Crypto} {link : Link} {cmd : UInt8} {body rsp : Bytes} {ctx after : Ctx}
    (done : fido2SendRecv crypto link cmd body ctx = (.ok rsp, after)) :
    ∃ reply, process crypto { cmd, body, capacity := maxMsg, env := link.env } ctx = (.ok reply, after) ∧
    rsp = payload reply := by
  unfold fido2SendRecv at done
  by_cases delivers : link.delivers
  · rw [if_pos delivers] at done
    obtain ⟨reply, _, processed, done⟩ := Proc.bind_eq_ok.mp done
    by_cases answers : link.answers
    · rw [if_pos answers] at done
      cases done
      exact ⟨reply, Proc.orFail_eq_ok.mp processed, rfl⟩
    · rw [if_neg answers] at done
      cases done
  · rw [if_neg delivers] at done
    cases done

theorem given_eq_ok {α : Type} {value : Option α} {ctx reached : Ctx} {found : α} :
    given value ctx = (.ok found, reached) ↔ value = some found ∧ ctx = reached := by
  cases value with
  | none => simp [given]
  | some value => simp [given]

theorem dupBytes_allocated {src : Bytes} (some_src : src ≠ []) : dupBytes true src = some src := by
  unfold dupBytes
  rw [if_neg (by simp [some_src])]

theorem dupBytes_eq_some {allocated : Bool} {src copy : Bytes} (made : dupBytes allocated src = some copy) : copy = src := by
  unfold dupBytes at made
  split at made
  · cases made
  · cases made
    rfl

theorem responseAuthData_registration {authData der : Bytes} (small : authData.length < 2 ^ 64)
    (short : der.length < 2 ^ 64) :
    responseAuthData (registrationBytes authData der) = authData := by
  have read := reads_findAuthData small short (Decoder.init (registrationBytes authData der)) [] rfl (List.append_nil _).symm
  unfold responseAuthData
  rw [read]
  rfl

theorem ecdsaSigToDer_short {signature : Buf 64} {der : Bytes} (made : ecdsaSigToDer signature = some der) :
    der.length ≤ 72 := by
  have cut (whole : Bytes) (kept : (if whole.length > 72 then none else some whole) = some der) : der.length ≤ 72 := by
    split at kept
    · cases kept
    · cases kept
      omega
  exact cut _ made

/-- What enrolment takes out of the response: the whole id, and the COSE key with all that
stands behind it. -/
theorem parseEnrollment_registered {crypto : Crypto} {env : Env} {wrapKey : Option (Buf 32)} {capacity : Nat} {reply : Reply}
    {memory : EnrollMemory} {response : EnrollResponse} (registers : Registers crypto env wrapKey capacity reply)
    (parsed : parseEnrollment memory (payload reply) = some response) :
    ∃ rpIdHash keypair credId extensions, drawCredentialId crypto env wrapKey rpIdHash = some (keypair, credId) ∧
      IsPoint keypair.publicKey ∧ response.keyHandle = some credId.bytes ∧
      response.publicKey = some (coseKeyBytes keypair.publicKey ++ extensions) := by
  obtain ⟨params, uv, signCount, keypair, credId, authData, signature, der, drawn, built, shaped, encoded⟩ := registers
  have short := (registrationData_of built).short
  have brief := ecdsaSigToDer_short shaped
  obtain ⟨kept, copied, parsed⟩ := Option.bind_eq_some_iff.mp parsed
  rw [(sends_registration authData der).sent encoded, responseAuthData_registration (by omega) (by omega)] at copied
  rw [dupBytes_eq_some copied] at parsed
  obtain ⟨point, extensions, shape⟩ := registrationData_eq built
  have parts : attestedParts authData = some (credId.bytes, coseKeyBytes keypair.publicKey ++ extensions) := by
    rw [shape]
    apply attestedParts_append
    · simp only [List.length_append, Buf.length_bytes, List.length_singleton, beBytes_length]
      decide
    · rw [List.getD_eq_getElem?_getD, List.getElem?_append_right (by rw [Buf.length_bytes]), Buf.length_bytes]
      exact makeCredentialFlags_attested params uv
    · have small : credId.bytes.length ≤ 128 := credId.short
      omega
    · exact List.cons_ne_nil _ _
  obtain ⟨⟨id, key⟩, found, parsed⟩ := Option.bind_eq_some_iff.mp parsed
  cases parts.symm.trans found
  obtain ⟨keyHandle, handled, parsed⟩ := Option.bind_eq_some_iff.mp parsed
  obtain ⟨publicKey, held, parsed⟩ := Option.bind_eq_some_iff.mp parsed
  obtain rfl := dupBytes_eq_some handled
  obtain rfl := dupBytes_eq_some held
  cases parsed
  exact ⟨params.rp.idHash, keypair, credId, extensions, drawn, point, rfl, rfl⟩

theorem skEnroll_registers {crypto : Crypto} {link : Link} {memory : EnrollMemory} {userId : Option (Buf 32)}
    {args : Enrollment}
    {ctx after : Ctx} {response : EnrollResponse}
    (done : skEnroll crypto link memory userId args ctx = (.ok response, after)) :
    ∃ reply, Registers crypto link.env ctx.wrapKey maxMsg reply ∧ parseEnrollment memory (payload reply) = some response := by
  obtain ⟨challenge, _, present, done⟩ := Proc.bind_eq_ok.mp done
  obtain ⟨-, rfl⟩ := given_eq_ok.mp present
  obtain ⟨application, _, present, done⟩ := Proc.bind_eq_ok.mp done
  obtain ⟨-, rfl⟩ := given_eq_ok.mp present
  by_cases edwards : args.alg = skEd25519
  · rw [if_pos edwards] at done
    cases done
  · rw [if_neg edwards] at done
    obtain ⟨userId, _, present, done⟩ := Proc.bind_eq_ok.mp done
    obtain ⟨-, rfl⟩ := given_eq_ok.mp present
    obtain ⟨request, _, present, done⟩ := Proc.bind_eq_ok.mp done
    obtain ⟨-, rfl⟩ := given_eq_ok.mp present
    obtain ⟨rsp, _, sent, done⟩ := Proc.bind_eq_ok.mp done
    obtain ⟨reply, processed, rfl⟩ := fido2SendRecv_eq_ok sent
    rw [process_makeCredential] at processed
    have registers : Registers crypto link.env ctx.dropAssertion.wrapKey maxMsg reply := makeCredential_registers processed
    by_cases allocated : memory.response
    · rw [if_pos allocated] at done
      exact ⟨reply, registers, (given_eq_ok.mp done).1⟩
    · rw [if_neg allocated] at done
      cases done

end Hiya.Ssh
