import Hiya.Proofs.PinRetries
import Hiya.Proofs.ResponseBytes

/-! When a command may say that the user was verified, or may change what it manages.
Every handler checks a token or asks the callback by itself; all of them come to the
same condition on the request and the context it meets. -/

namespace Hiya.Fido2
open Library Cbor
open Proc (Ends Keeps)

/-- A `pinUvAuthParam` as a request presents it: what it stands for, the party the
request names and the message it should authenticate. -/
structure TokenUse where
  permission : UInt32
  rpId : Option Bytes
  protocol : UInt32
  message : Bytes
  param : Blob 32

section
variable (crypto : Crypto)

def makeCredentialUse (params : MakeCredParams) (param : Blob 32) : TokenUse where
  permission := permMakeCredential
  rpId := some params.rp.id.bytes
  protocol := params.pinUvAuthProtocol
  message := if params.pinUvAuthProtocol = 2 then [0x01] ++ params.clientDataHash.bytes else params.clientDataHash.bytes
  param

def getAssertionUse (params : GetAssertionParams) (param : Blob 32) : TokenUse where
  permission := permGetAssertion
  rpId := some (params.rpId.bytes.takeWhile (· ≠ 0))
  protocol := params.pinUvAuthProtocol
  message :=
    if params.pinUvAuthProtocol = 2 then [0x03] ++ params.rpIdHash.bytes ++ params.clientDataHash.bytes
    else params.clientDataHash.bytes
  param

def bioEnrollUse (params : BioEnrollParams) (param : Blob 32) : TokenUse where
  permission := permBioEnrollment
  rpId := none
  protocol := params.pinProtocol
  message := [params.modality.toUInt8, params.subCommand.toUInt8]
  param

def credMgmtUse (params : CredMgmtParams) (param : Blob 32) : TokenUse where
  permission := permCredentialMgmt
  rpId := none
  protocol := params.pinProtocol
  message := List.replicate 32 0xFF ++ [params.subCommand.toUInt8]
  param

def setMinPinLengthUse (params : ClientPinParams) (length : UInt32) (param : Blob 32) : TokenUse where
  permission := permAuthnrCfg
  rpId := none
  protocol := params.pinProtocol
  message := [0x08] ++ beBytes 4 length.toNat
  param

def tokenUse (request : Request) : Option TokenUse :=
  match request.command with
  | .makeCredential => (parseMakeCredParams crypto request.body).toOption.bind fun parsed =>
      parsed.1.pinUvAuthParam.map (makeCredentialUse parsed.1)
  | .getAssertion => (parseGetAssertionParams crypto request.body).toOption.bind fun parsed =>
      parsed.1.pinUvAuthParam.map (getAssertionUse parsed.1)
  | .bioEnrollment => (parseBioEnrollParams request.body).toOption.bind fun params =>
      params.pinUvAuthParam.map (bioEnrollUse params)
  | .credentialManagement => (parseCredMgmtParams request.body).toOption.bind fun params =>
      params.pinUvAuthParam.map (credMgmtUse params)
  | .clientPin => (parseClientPinParams request.body).toOption.bind fun params =>
      params.newMinPinLength.bind fun length => params.pinUvAuthParam.map (setMinPinLengthUse params length)
  | _ => none

def TokenUse.Verifies (use : TokenUse) (token : Buf 32) : Prop :=
  ∃ code, crypto.mac token use.message = some code ∧
    ((use.protocol = 1 ∧ code.bytes.take 16 = use.param.bytes.take 16) ∨ (use.protocol = 2 ∧ code.bytes = use.param.bytes))

/-- The parameter verifies under the token in force, which stands for the permission
and, if it is bound to a party, for the one the request names. Where the library fails to
compute the code, which no handler looks at, nothing is asked of the parameter. -/
structure Accepted (permits : UInt32 → UInt32 → Prop) (pin : PinState) (use : TokenUse) : Prop where
  valid : pin.pinTokenValid = true
  permitted : permits pin.pinTokenPermissions use.permission
  party : pin.pinTokenRpIdSet = true → ∀ rpId, use.rpId = some rpId → pin.pinTokenRpId.bytes = rpId
  verifies : use.Verifies crypto pin.pinToken ∨ crypto.mac pin.pinToken use.message = none

def Authorised (permits : UInt32 → UInt32 → Prop) (request : Request) (ctx : Ctx) : Prop :=
  (∃ use, tokenUse crypto request = some use ∧ Accepted crypto permits ctx.pin use) ∨
    (ctx.verifyUser = true ∧ request.env.userVerified = true)

end

/-- The permission is among those of the token. -/
def Grants (permissions permission : UInt32) : Prop := permissions &&& permission ≠ 0

/-- A token of the older getPinToken has no permissions, which stands for all of them. -/
def TokenPermits (permissions permission : UInt32) : Prop := permissions = 0 ∨ Grants permissions permission

private theorem permits_of_guard {permissions permission : UInt32}
    (guard : ¬ (permissions ≠ 0 ∧ permissions &&& permission = 0)) :
    TokenPermits permissions permission := by
  by_cases legacy : permissions = 0
  · exact .inl legacy
  · exact .inr fun missing => guard ⟨legacy, missing⟩

section
variable {crypto : Crypto} {pin : PinState}

/-- The code that a handler compares with is the one of the library, unless there is none. -/
theorem verifies_or_fails {use : TokenUse} {token : Buf 32}
    (equal : (use.protocol = 1 ∧ (crypto.hmacSha256 token use.message).bytes.take 16 = use.param.bytes.take 16) ∨
      (use.protocol = 2 ∧ (crypto.hmacSha256 token use.message).bytes = use.param.bytes)) :
    use.Verifies crypto token ∨ crypto.mac token use.message = none := by
  unfold Crypto.hmacSha256 at equal
  cases made : crypto.mac token use.message with
  | none => exact .inr rfl
  | some code =>
    rw [made] at equal
    exact .inl ⟨code, made, equal⟩

private theorem accepted_of_check {permission : UInt32} {rpId : Bytes} {param : Blob 32} {protocol : UInt32}
    {firstMessage secondMessage : Bytes}
    (passed : checkPinUvAuth crypto pin permission rpId param protocol firstMessage secondMessage = .ok ()) :
    Accepted crypto TokenPermits pin
      { permission, rpId := some rpId, protocol, message := if protocol = 2 then secondMessage else firstMessage, param } := by
  unfold checkPinUvAuth at passed
  split at passed
  · cases passed
  next valid =>
    split at passed
    · cases passed
    next permitted =>
      split at passed
      · cases passed
      next party =>
        refine ⟨by simpa using valid, permits_of_guard permitted, fun bound named same => ?_, ?_⟩
        · cases same
          exact not_not.mp fun other => party ⟨bound, other⟩
        · split at passed
          next two =>
            split at passed
            · cases passed
            next equal =>
              refine verifies_or_fails (.inr ⟨two, ?_⟩)
              rw [if_pos two]
              exact not_not.mp fun other => equal (.inr other)
          next other =>
            split at passed
            next one =>
              split at passed
              · cases passed
              next equal =>
                refine verifies_or_fails (.inl ⟨one, ?_⟩)
                rw [if_neg other]
                exact not_not.mp equal
            · cases passed

private theorem verifies_of_paramMatches {permission protocol : UInt32} {message : Bytes} {param : Blob 32}
    (known : protocol = 1 ∨ protocol = 2) (same : paramMatches crypto pin.pinToken protocol message param = true) :
    TokenUse.Verifies crypto { permission, rpId := none, protocol, message, param } pin.pinToken ∨
      crypto.mac pin.pinToken message = none := by
  unfold paramMatches at same
  dsimp only at same
  refine verifies_or_fails ?_
  rcases known with one | two
  · rw [if_neg (by rw [one]; decide), decide_eq_true_eq] at same
    exact .inl ⟨one, same⟩
  · rw [if_pos two, decide_eq_true_eq, not_or, not_not] at same
    exact .inr ⟨two, same.2⟩

end

def uvFlagged : Except Error Bytes → Bool
  | .ok data => (authFlags data).any fun flags => flags &&& flagUv ≠ 0
  | .error _ => false

def carriesUv : Except Status Reply → Bool
  | .ok (.registered _ _ bytes) => uvFlagged (registrationAuthData (Decoder.init bytes)).1
  | .ok (.asserted _ _ _ bytes) => uvFlagged (assertionAuthData (Decoder.init bytes)).1
  | _ => false

section
variable {crypto : Crypto} {env : Env} {ctx : Ctx}

/-- Go on after a part of which nothing need be known. -/
theorem ends_any {α β : Type} {first : Command α} {next : α → Command β} {post : Except Status β → Ctx → Prop}
    (failed : ∀ problem reached, post (.error problem) reached)
    (rest : ∀ value reached, Ends (next value) reached post) : Ends (first >>= next) ctx post := by
  have blind : Keeps (fun _ : Ctx => ()) first := fun _ => rfl
  exact blind.ends (fun problem reached _ => failed problem reached) fun value reached _ => rest value reached

private theorem uvFlagged_of {flags : UInt8} {data : Bytes} (made : AuthDataOf flags data) :
    uvFlagged (.ok data) = true ↔ flags &&& flagUv ≠ 0 := by
  rw [uvFlagged, made.flagged, Option.any_some, decide_eq_true_eq]

private theorem makeCredentialFlags_uv {params : MakeCredParams} {uv : Bool}
    (flagged : makeCredentialFlags params uv &&& flagUv ≠ 0) :
    uv = true := by
  cases uv with
  | true => rfl
  | false =>
    exfalso
    apply flagged
    unfold makeCredentialFlags
    simp only [Bool.false_eq_true, if_false]
    split
    · decide
    · decide

private theorem register_flagged {params : MakeCredParams} {uv : Bool} {keypair : Keypair} {id : CredentialId}
    {hmacSecret : Option (Buf 32)} {capacity : Nat} :
    Ends (register crypto env params uv keypair id hmacSecret capacity) ctx
      fun outcome _ => carriesUv outcome = true → uv = true := by
  have failed (problem : Status) : carriesUv (.error problem) = true → uv = true := fun flagged => by cases flagged
  apply Ends.get
  apply Ends.andThen
  refine ends_need (failed _) fun authData built => ends_need (failed _) fun signature _ => ?_
  have sends (reached : Ctx) : Ends (sendRegistration id (ctx.globalSignCount + 1) authData signature capacity) reached
      fun outcome _ => carriesUv outcome = true → uv = true := by
    refine ends_need (failed _) fun der _ => ends_need (failed _) fun bytes sent => ?_
    have made := registrationData_of built
    intro flagged
    change uvFlagged (registrationAuthData (Decoder.init bytes)).1 = true at flagged
    rw [registration_reads_back made sent, uvFlagged_of made] at flagged
    exact makeCredentialFlags_uv flagged
  apply Ends.ite
  · exact fun _ => ends_any (fun problem _ => failed problem) fun _ reached => sends reached
  · exact fun _ => sends _

private theorem buildAssertionResponse_flagged {holder : Option CredSlot} {privkey : Buf 32} {id : CredentialId}
    {rpIdHash clientDataHash : Buf 32} {flags : UInt8} {total : Nat} {includeUser : Bool} {capacity : Nat} :
    Ends (buildAssertionResponse crypto env holder privkey id rpIdHash clientDataHash flags total includeUser capacity)
      ctx fun outcome _ => carriesUv outcome = true → flags &&& flagUv ≠ 0 := by
  have failed (problem : Status) : carriesUv (.error problem) = true → flags &&& flagUv ≠ 0 := fun flagged => by cases flagged
  apply Ends.get
  apply Ends.andThen
  refine ends_need (failed _) fun authData built => ends_need (failed _) fun signature _ => ends_need (failed _)
    fun der _ => ?_
  dsimp only
  split
  next bytes sent =>
    have made := assertionData_of built
    intro flagged
    change uvFlagged (assertionAuthData (Decoder.init bytes)).1 = true at flagged
    rwa [assertion_reads_back made sent, uvFlagged_of made] at flagged
  · exact failed .other

/-- Saving after the response does not change it. -/
theorem ends_thenSave {body : Command Reply} {good : Except Status Reply → Prop}
    (made : Ends body ctx fun outcome _ => good outcome) :
    Ends (body >>= fun reply => (saveCredentials crypto env).ignore >>= fun _ => pure reply)
    ctx fun outcome _ => good outcome := by
  apply Ends.bind
  refine made.mono fun outcome reached good => ?_
  cases outcome with
  | error problem => exact good
  | ok reply => exact good

private theorem performUv_true {param : Option (Blob 32)} {check : PinState → Blob 32 → Except Status Unit}
    (verified : (performUv env param check ctx).1 = .ok true) :
    (∃ given, param = some given ∧ check ctx.pin given = .ok ()) ∨ (ctx.verifyUser = true ∧ env.userVerified = true) := by
  unfold performUv at verified
  rw [Proc.bind_of_ok (Proc.get_apply ctx)] at verified
  cases param with
  | none =>
    dsimp only at verified
    split at verified
    next installed =>
      split at verified
      next present => exact .inr ⟨installed, present⟩
      · cases verified
    · cases verified
  | some given =>
    cases checked : check ctx.pin given with
    | ok done => exact .inl ⟨given, rfl, checked⟩
    | error problem =>
      dsimp only at verified
      rw [checked] at verified
      cases verified

end

section
variable {crypto : Crypto} {request : Request} {ctx : Ctx}

/-- A request that is read and carries the parameter presents it. -/
theorem use_of_parsed {α β : Type} {result : Except Status α} {value : α} {param : α → Option β} {given : β} {use : α →
    β → TokenUse}
    (parsed : result = .ok value) (carries : param value = some given) :
    (result.toOption.bind fun value => (param value).map (use value)) = some (use value given) := by
  rw [parsed]
  change (param value).map (use value) = some (use value given)
  rw [carries]
  rfl

private theorem makeCredential_flagged (command : request.command = .makeCredential) :
    Ends (makeCredential crypto request.env request.body request.capacity) ctx.dropAssertion
      fun outcome _ => carriesUv outcome = true → Authorised crypto TokenPermits request ctx := by
  have failed (problem : Status) : carriesUv (.error problem) = true → Authorised crypto TokenPermits request ctx :=
    fun flagged => by cases flagged
  refine ends_ofExcept failed ?_
  rintro ⟨params, excludeList⟩ parsed
  apply Ends.get
  apply Ends.ite
  · exact fun _ => failed _
  intro included
  refine ends_performUv failed fun uv verified => ?_
  have authorised (flagged : uv = true) : Authorised crypto TokenPermits request ctx := by
    rw [flagged] at verified
    rcases performUv_true verified with ⟨param, given, passed⟩ | callback
    · refine .inl ⟨_, ?_, accepted_of_check passed⟩
      unfold tokenUse
      rw [command]
      exact use_of_parsed parsed given
    · exact .inr callback
  refine ends_need (failed _) ?_
  rintro ⟨keypair, credId⟩ drew
  refine ends_any (fun problem _ => failed problem) fun secret reached => ?_
  exact register_flagged.mono fun outcome _ flagged carries => authorised (flagged carries)

private theorem assertionFlags_uv {uv : Bool} (flagged : (flagUp ||| (if uv then flagUv else 0)) &&& flagUv ≠ 0) :
    uv = true := by
  cases uv with
  | true => rfl
  | false => exact absurd (by decide) flagged

private theorem getAssertion_flagged (command : request.command = .getAssertion) :
    Ends (getAssertion crypto request.env request.body request.capacity) ctx.dropAssertion
      fun outcome _ => carriesUv outcome = true → Authorised crypto TokenPermits request ctx := by
  have failed (problem : Status) : carriesUv (.error problem) = true → Authorised crypto TokenPermits request ctx :=
    fun flagged => by cases flagged
  refine ends_ofExcept failed ?_
  rintro ⟨params, allowList⟩ parsed
  refine ends_performUv failed fun uv verified => ?_
  have authorised (flagged : (flagUp ||| (if uv then flagUv else 0)) &&& flagUv ≠ 0) :
    Authorised crypto TokenPermits request ctx := by
    rw [assertionFlags_uv flagged] at verified
    rcases performUv_true verified with ⟨param, given, passed⟩ | callback
    · refine .inl ⟨_, ?_, accepted_of_check passed⟩
      unfold tokenUse
      rw [command]
      exact use_of_parsed parsed given
    · exact .inr callback
  apply Ends.andThen
  apply Ends.get
  split
  · apply ends_thenSave
    exact buildAssertionResponse_flagged.mono fun outcome _ flagged carries => authorised (flagged carries)
  · exact failed _
  · apply Ends.andThen
    apply Ends.get
    apply ends_thenSave
    exact buildAssertionResponse_flagged.mono fun outcome _ flagged carries => authorised (flagged carries)

structure Managed where
  credentials : CredSlot → Credential
  credentialCount : Nat
  templates : TemplateSlot → BioTemplate
  templateCount : Nat
  enrollActive : Option TemplateSlot
  minPinLength : UInt32

def Ctx.managed (ctx : Ctx) : Managed where
  credentials := ctx.credentials
  credentialCount := ctx.credentialCount
  templates := ctx.bioTemplates
  templateCount := ctx.bioTemplateCount
  enrollActive := ctx.bioEnrollActive
  minPinLength := ctx.minPinLength

/-- A part that manages nothing needs no authorisation. -/
theorem ends_unmanaged {body : Command Reply} (keeps : Keeps Ctx.managed body) :
    Ends body ctx.dropAssertion fun _ reached => reached.managed ≠ ctx.managed →
    Authorised crypto TokenPermits request ctx :=
  fun changed => absurd (keeps ctx.dropAssertion) changed

private theorem ends_authorize {env : Env} {permission protocol : UInt32} {param : Option (Blob 32)} {message : Bytes}
    {short : Nat}
    {next : Unit → Command Reply} {start : Ctx} {post : Except Status Reply → Ctx → Prop}
    (failed : ∀ problem, post (.error problem) start)
    (rest : (∃ given, param = some given ∧ Accepted crypto TokenPermits start.pin
        { permission, rpId := none, protocol, message, param := given }) ∨
        (start.verifyUser = true ∧ env.userVerified = true) →
      Ends (next ()) start post) :
    Ends (authorize crypto env permission param protocol message short >>= next) start post := by
  apply Ends.bind
  apply Ends.get
  cases param with
  | some given =>
    refine ends_check (failed _) fun valid => ends_check (failed _) fun known => ends_check (failed _) fun permitted => ?_
    refine ends_check (failed _) fun _ => ?_
    unfold Command.check
    apply Ends.ite
    · intro same
      exact rest (.inl ⟨given, rfl, valid, permits_of_guard permitted, fun _ _ none => (by cases none),
        verifies_of_paramMatches known same⟩)
    · exact fun _ => failed _
  | none =>
    apply Ends.ite
    · intro installed
      unfold Command.check
      apply Ends.ite
      · exact fun present => rest (.inr ⟨installed, present⟩)
      · exact fun _ => failed _
    · exact fun _ => failed _

private theorem bioEnrollment_managed (command : request.command = .bioEnrollment) :
    Ends (bioEnrollment crypto request.env request.body request.capacity) ctx.dropAssertion
      fun _ reached => reached.managed ≠ ctx.managed → Authorised crypto TokenPermits request ctx := by
  have same : ctx.dropAssertion.managed ≠ ctx.managed → Authorised crypto TokenPermits request ctx :=
    fun changed => absurd rfl changed
  refine ends_ofExcept (fun _ => same) fun params parsed => ends_check same fun _ => ?_
  split
  · exact ends_unmanaged (keeps_sendItems _ _)
  apply Ends.ite
  · intro _
    refine ends_authorize (fun _ => same) fun authorised _ => ?_
    rcases authorised with ⟨param, given, accepted⟩ | callback
    · refine .inl ⟨_, ?_, accepted⟩
      unfold tokenUse
      rw [command]
      exact use_of_parsed parsed given
    · exact .inr callback
  · intro info
    have seven : params.subCommand.toNat = 0x07 := by rw [not_not.mp info]; rfl
    unfold bioEnrollCommand
    rw [seven]
    exact ends_unmanaged (keeps_sendItems _ _)

private theorem managed_of_besideEnum {body : Command Reply} (keeps : Keeps Ctx.besideEnum body) :
    Keeps Ctx.managed body := by
  intro start
  rw [eq_of_besideEnum (keeps start)]
  rfl

private theorem credentialManagement_managed (command : request.command = .credentialManagement) :
    Ends (credentialManagement crypto request.env request.body request.capacity) ctx.dropAssertion
      fun _ reached => reached.managed ≠ ctx.managed → Authorised crypto TokenPermits request ctx := by
  have same : ctx.dropAssertion.managed ≠ ctx.managed → Authorised crypto TokenPermits request ctx :=
    fun changed => absurd rfl changed
  refine ends_ofExcept (fun _ => same) fun params parsed => ?_
  apply Ends.ite
  · intro continues
    simp only [isGetNext, decide_eq_true_eq] at continues
    have quiet : Keeps Ctx.managed (credMgmtCommand crypto request.env params request.capacity) := by
      refine .bind .get fun start => ?_
      rcases continues with three | five
      · rw [three]
        exact managed_of_besideEnum (enumerateRpsNext_beside _)
      · rw [five]
        exact managed_of_besideEnum (enumerateCredsNext_beside _)
    exact ends_unmanaged quiet
  · intro _
    refine ends_authorize (fun _ => same) fun authorised _ => ?_
    rcases authorised with ⟨param, given, accepted⟩ | callback
    · refine .inl ⟨_, ?_, accepted⟩
      unfold tokenUse
      rw [command]
      exact use_of_parsed parsed given
    · exact .inr callback

private theorem managed_of_besidePin {body : Command Reply} (keeps : Keeps Ctx.besidePin body) :
    Keeps Ctx.managed body := by
  intro start
  exact (congrArg Ctx.managed (keeps start) : (body start).2.besidePin.managed = start.besidePin.managed)

private theorem clientPin_managed (command : request.command = .clientPin) :
    Ends (clientPin crypto request.env request.body request.capacity) ctx.dropAssertion
      fun _ reached => reached.managed ≠ ctx.managed → Authorised crypto TokenPermits request ctx := by
  have same : ctx.dropAssertion.managed ≠ ctx.managed → Authorised crypto TokenPermits request ctx :=
    fun changed => absurd rfl changed
  refine ends_ofExcept (fun _ => same) fun params parsed => ends_check same fun known => ?_
  apply Ends.get
  split
  · exact ends_unmanaged (keeps_sendItems _ _)
  · exact ends_unmanaged (keeps_sendItems _ _)
  · exact ends_unmanaged (managed_of_besidePin (setPin_beside _))
  · exact ends_unmanaged (managed_of_besidePin (changePin_beside _))
  · exact ends_unmanaged (managed_of_besidePin (getPinToken_beside _ _))
  · exact ends_unmanaged (managed_of_besidePin (getUvTokenPerm_beside _ _))
  · exact ends_unmanaged (keeps_sendItems _ _)
  · apply Ends.get
    refine ends_check same fun _ => ends_need same fun length wanted => ends_check same fun _ => ends_need same fun param given => ?_
    refine ends_check same fun valid => ends_check same fun permitted => ends_check same fun matching => ?_
    intro _
    refine .inl ⟨setMinPinLengthUse params length param, ?_, ?_⟩
    · unfold tokenUse
      rw [command]
      simp only [parsed, Except.toOption, Option.bind_some, wanted, given, Option.map_some]
    · exact ⟨valid, permits_of_guard permitted, fun _ _ none => (by cases none), verifies_of_paramMatches known matching⟩
  · exact ends_unmanaged (managed_of_besidePin (getPinTokenPerm_beside _ _))
  · exact same

/-- What one command shows of the user, by what speaks for the user. -/
structure VerifiedUse (crypto : Crypto) (permits : UInt32 → UInt32 → Prop) (event : Exchange) : Prop where
  flagged : event.input.command = .makeCredential ∨ event.input.command = .getAssertion →
    carriesUv event.outcome = true → Authorised crypto permits event.input event.before
  managed : event.input.command ∈ [.credentialManagement, .bioEnrollment, .clientPin] →
    event.after.managed ≠ event.before.managed → Authorised crypto permits event.input event.before

private theorem ends_dispatched {post : Except Status Reply → Ctx → Prop} {command : Cmd} (which : request.command = command)
    (other : command ≠ .getNextAssertion) (ends : Ends (dispatch crypto request) ctx.dropAssertion post) :
    Ends (process crypto request) ctx post := ends_process (which ▸ other) ends

private theorem process_flagged (command : request.command = .makeCredential ∨ request.command = .getAssertion) :
    Ends (process crypto request) ctx
      fun outcome _ => carriesUv outcome = true → Authorised crypto TokenPermits request ctx := by
  rcases command with makes | asserts
  · apply ends_dispatched makes (by decide)
    unfold dispatch
    rw [show Cmd.ofByte request.cmd = .makeCredential from makes]
    exact makeCredential_flagged makes
  · apply ends_dispatched asserts (by decide)
    unfold dispatch
    rw [show Cmd.ofByte request.cmd = .getAssertion from asserts]
    exact getAssertion_flagged asserts

private theorem process_managed (command : request.command ∈ [.credentialManagement, .bioEnrollment, .clientPin]) :
    Ends (process crypto request) ctx
      fun _ reached => reached.managed ≠ ctx.managed → Authorised crypto TokenPermits request ctx := by
  simp only [List.mem_cons, List.not_mem_nil, or_false] at command
  rcases command with manages | enrolls | pins
  · apply ends_dispatched manages (by decide)
    unfold dispatch
    rw [show Cmd.ofByte request.cmd = .credentialManagement from manages]
    exact credentialManagement_managed manages
  · apply ends_dispatched enrolls (by decide)
    unfold dispatch
    rw [show Cmd.ofByte request.cmd = .bioEnrollment from enrolls]
    exact bioEnrollment_managed enrolls
  · apply ends_dispatched pins (by decide)
    unfold dispatch
    rw [show Cmd.ofByte request.cmd = .clientPin from pins]
    exact clientPin_managed pins

/-- A response carries the UV flag, and a management command changes anything, only
when the callback said yes or a valid token of the permission, or without any
restriction, verified; a token bound to a party is good for that party only. Of a parameter
whose code the library fails to compute nothing is said. -/
theorem user_verification_is_authorised (crypto : Crypto) (start : Ctx) (requests : List Request) :
    Throughout ((authenticator crypto).run start requests) fun _ event => VerifiedUse crypto TokenPermits event := by
  refine Machine.run_steps (fun ctx request => ?_) start requests
  exact ⟨process_flagged, process_managed⟩

end

def legacyRun : List Request :=
  [setPinRequest, pinTokenRequest "1234",
    plainRequest 0x01 1 ([0xA6] ++ makeParams ++ [0x08, 0x50, 1] ++ List.replicate 15 0 ++ [0x09, 0x01])]

/-- The token carries no permission, and the response says that the user was verified. -/
theorem legacy_token_sets_uv :
    ¬ ∀ (crypto : Crypto) (start : Ctx) (requests : List Request),
      Throughout ((authenticator crypto).run start requests) fun _ event => VerifiedUse crypto Grants event := by
  intro claimed
  have all := claimed tagCipher (plainCtx false) legacyRun
  have registered : ((authenticator tagCipher).run (plainCtx false) legacyRun).any (fun event =>
      event.input.command = .makeCredential && carriesUv event.outcome && !event.before.verifyUser &&
        event.before.pin.pinTokenPermissions = 0) = true := by decide +kernel
  obtain ⟨event, inside, shape⟩ := List.any_eq_true.mp registered
  simp only [Bool.and_eq_true, decide_eq_true_eq, Bool.not_eq_true'] at shape
  obtain ⟨⟨⟨makes, carries⟩, silent⟩, unrestricted⟩ := shape
  rcases (all.of_mem inside).flagged (.inl makes) carries with ⟨use, -, accepted⟩ | ⟨callback, -⟩
  · apply accepted.permitted
    rw [unrestricted, UInt32.zero_and]
  · rw [silent] at callback
    cases callback

end Hiya.Fido2
