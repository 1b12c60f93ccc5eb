import Hiya.Proofs.PinRetries

/-! How long a token is in force. It is replaced when a subcommand of clientPIN issues the
next one, wiped when a draw for the next one fails and dropped by a reset; changing the PIN
is none of these. -/

namespace Hiya.Fido2
open Library Cbor
open Proc (Ends Keeps)

structure Token where
  value : Buf 32
  valid : Bool
  permissions : UInt32
  rpId : CText maxRpIdLen
  rpIdSet : Bool

def Ctx.token (ctx : Ctx) : Token where
  value := ctx.pin.pinToken
  valid := ctx.pin.pinTokenValid
  permissions := ctx.pin.pinTokenPermissions
  rpId := ctx.pin.pinTokenRpId
  rpIdSet := ctx.pin.pinTokenRpIdSet

def Token.bound (value : Buf 32) (permissions : UInt32) (rpId : Blob 255) : Token where
  value
  valid := true
  permissions
  rpId := .ofSlice _ maxRpIdLen_pos rpId.bytes
  rpIdSet := rpId.bytes.length > 0

/-- The token of a subcommand; that of getPinToken has no permissions and no party. -/
def issuedToken (params : ClientPinParams) (value : Buf 32) : Token :=
  if params.subCommand.toNat = 0x05 then .bound value 0 (.empty _) else .bound value (params.permissions.getD 0) params.rpId

/-- A subcommand that draws a token, and the token it drew is in force afterwards. -/
def IssuesToken (event : Exchange) : Prop :=
  event.input.command = .clientPin ∧ ∃ params value, parseClientPinParams event.input.body = .ok params ∧
    params.subCommand.toNat ∈ [0x05, 0x06, 0x09] ∧ event.input.env.pinToken = some value ∧
    event.after.token = issuedToken params value

/-- A subcommand whose draw fails. The token is in force as it was, with a value of zeros. -/
def WipesToken (event : Exchange) : Prop :=
  event.input.command = .clientPin ∧ ∃ params, parseClientPinParams event.input.body = .ok params ∧
    params.subCommand.toNat ∈ [0x05, 0x06, 0x09] ∧ event.input.env.pinToken = none ∧
    event.after.token = { event.before.token with value := .zero 32 }

def pinSubCommand (request : Request) : Option Nat :=
  (parseClientPinParams request.body).toOption.map fun params => params.subCommand.toNat

def changesPin (event : Exchange) : Bool :=
  event.input.command = .clientPin && pinSubCommand event.input = some 0x04 && succeeds event.outcome

/-- The request presents a parameter, and the check that its command makes lets it pass. -/
def accepts (crypto : Crypto) (request : Request) (ctx : Ctx) : Bool :=
  match request.command with
  | .makeCredential => (parseMakeCredParams crypto request.body).toOption.any fun parsed =>
      parsed.1.pinUvAuthParam.isSome && (makeCredentialUv crypto request.env parsed.1 ctx).1.isOk
  | .getAssertion => (parseGetAssertionParams crypto request.body).toOption.any fun parsed =>
      parsed.1.pinUvAuthParam.isSome && (getAssertionUv crypto request.env parsed.1 ctx).1.isOk
  | .bioEnrollment => (parseBioEnrollParams request.body).toOption.any fun params =>
      params.pinUvAuthParam.isSome && (authorize crypto request.env permBioEnrollment params.pinUvAuthParam params.pinProtocol
        [params.modality.toUInt8, params.subCommand.toUInt8] 0 ctx).1.isOk
  | .credentialManagement => (parseCredMgmtParams request.body).toOption.any fun params =>
      params.pinUvAuthParam.isSome && (authorize crypto request.env permCredentialMgmt params.pinUvAuthParam params.pinProtocol
        (List.replicate 32 0xFF ++ [params.subCommand.toUInt8]) 16 ctx).1.isOk
  | .clientPin => (parseClientPinParams request.body).toOption.any fun params =>
      params.subCommand.toNat = 0x08 && (setMinPinLength crypto params ctx).1.isOk
  | _ => false

section
variable {crypto : Crypto} {env : Env} {ctx reached : Ctx}

theorem checkPinUvAuth_congr (same : reached.token = ctx.token) (permission : UInt32) (rpId : Bytes) (param : Blob 32)
    (protocol : UInt32) (firstMessage secondMessage : Bytes) :
    checkPinUvAuth crypto reached.pin permission rpId param protocol firstMessage secondMessage =
      checkPinUvAuth crypto ctx.pin permission rpId param protocol firstMessage secondMessage := by
  obtain ⟨value, valid, permissions, party, bound⟩ := Token.mk.injEq .. ▸ same
  simp only [checkPinUvAuth, value, valid, permissions, party, bound]

theorem performUv_given {check : PinState → Blob 32 → Except Status Unit} {param : Option (Blob 32)}
    (given : param.isSome = true)
    (same : ∀ value, check reached.pin value = check ctx.pin value) :
    (performUv env param check reached).1 = (performUv env param check ctx).1 := by
  cases param with
  | none => cases given
  | some value =>
    change ((Command.ofExcept (check reached.pin value) >>= _) reached).1 =
      ((Command.ofExcept (check ctx.pin value) >>= _) ctx).1
    rw [same]
    cases check ctx.pin value with
    | error problem => rfl
    | ok done => rfl

/-- Where the checks in front agree, only what follows matters. -/
theorem outcome_check {β : Type} {holds other : Prop} [Decidable holds] [Decidable other] {problem : Status}
    {first second : Unit → Command β} (agree : holds ↔ other) (rest : (first () reached).1 = (second () ctx).1) :
    ((Command.check holds problem >>= first) reached).1 = ((Command.check other problem >>= second) ctx).1 := by
  unfold Command.check
  by_cases passes : holds
  · rw [if_pos passes, if_pos (agree.mp passes)]
    exact rest
  · rw [if_neg passes, if_neg fun passed => passes (agree.mpr passed)]
    rfl

theorem outcome_need {β γ : Type} {value : Option γ} {problem : Status} {first second : γ → Command β}
    (rest : ∀ value, (first value reached).1 = (second value ctx).1) :
    ((Command.need value problem >>= first) reached).1 = ((Command.need value problem >>= second) ctx).1 := by
  cases value with
  | none => rfl
  | some value => exact rest value

theorem authorize_given {permission protocol : UInt32} {param : Option (Blob 32)} {message : Bytes} {short : Nat}
    (given : param.isSome = true) (same : reached.token = ctx.token) :
    (authorize crypto env permission param protocol message short reached).1 =
      (authorize crypto env permission param protocol message short ctx).1 := by
  obtain ⟨value, valid, permissions, -, -⟩ := Token.mk.injEq .. ▸ same
  cases param with
  | none => cases given
  | some param =>
    refine outcome_check (by rw [valid]) (outcome_check Iff.rfl (outcome_check (by rw [permissions])
      (outcome_check Iff.rfl ?_)))
    rw [value]
    unfold Command.check
    split
    · rfl
    · rfl

theorem setMinPinLength_congr (same : reached.token = ctx.token) (set : reached.pin.pinSet = ctx.pin.pinSet)
    (params : ClientPinParams) :
    (setMinPinLength crypto params reached).1 = (setMinPinLength crypto params ctx).1 := by
  obtain ⟨value, valid, permissions, -, -⟩ := Token.mk.injEq .. ▸ same
  refine outcome_check (by rw [set]) (outcome_need fun length => outcome_check Iff.rfl (outcome_need fun param => ?_))
  exact outcome_check (by rw [valid]) (outcome_check (by rw [permissions]) (outcome_check (by rw [value]) rfl))

/-- Two contexts that agree on what a request with a parameter comes to. -/
theorem any_given {α β : Type} {outcome : Except Status α} {param : α → Option (Blob 32)} {first second : α → Except Status β}
    (same : ∀ value, (param value).isSome = true → first value = second value) :
    (outcome.toOption.any fun value => (param value).isSome && (first value).isOk) =
      outcome.toOption.any fun value => (param value).isSome && (second value).isOk := by
  congr 1
  funext value
  cases given : (param value).isSome with
  | false => rfl
  | true => rw [same value given]

theorem accepts_congr (same : reached.token = ctx.token) (set : reached.pin.pinSet = ctx.pin.pinSet) (request : Request) :
    accepts crypto request reached = accepts crypto request ctx := by
  unfold accepts
  cases request.command with
  | makeCredential => exact any_given fun parsed given => performUv_given given fun _ => checkPinUvAuth_congr same _ _ _ _ _ _
  | getAssertion => exact any_given fun parsed given => performUv_given given fun _ => checkPinUvAuth_congr same _ _ _ _ _ _
  | bioEnrollment => exact any_given fun params given => authorize_given given same
  | credentialManagement => exact any_given fun params given => authorize_given given same
  | clientPin =>
    dsimp only
    simp only [setMinPinLength_congr same set]
  | getInfo => rfl
  | reset => rfl
  | getNextAssertion => rfl
  | selection => rfl
  | unknown => rfl

def Ctx.tokenView (ctx : Ctx) : Token × Bool := (ctx.token, ctx.pin.pinSet)

def TokenStays (before after : Ctx) : Prop :=
  after.token = before.token ∧ (before.pin.pinSet = true → after.pin.pinSet = true)

instance : IsPreorder Ctx TokenStays where
  refl _ := ⟨rfl, id⟩
  trans _ _ _ first second := ⟨second.1.trans first.1, second.2 ∘ first.2⟩

theorem TokenStays.of_view (same : reached.tokenView = ctx.tokenView) : TokenStays ctx reached := by
  obtain ⟨token, set⟩ := Prod.mk.injEq .. ▸ same
  exact ⟨token, fun held => set.trans held⟩

theorem regenerateKeyAgreement_token : Keeps Ctx.tokenView (regenerateKeyAgreement env) := by
  unfold regenerateKeyAgreement
  split
  · exact .bind (.modify fun _ => rfl) fun _ => .fail _
  · exact .modify fun _ => rfl

theorem verifyPinHash_token (aes : Buf 32) (pinHashEnc : Blob 64) :
    Keeps Ctx.tokenView (verifyPinHash crypto env aes pinHashEnc) := by
  have charge (ctx : Ctx) : (ctx.updatePin chargeRetry).tokenView = ctx.tokenView := by
    unfold Ctx.updatePin chargeRetry
    dsimp only
    split
    · rfl
    · rfl
  refine .bind (keeps_need _ _) fun plain => .bind .get fun ctx => .ite (.pure ()) ?_
  refine .bind (.modify charge) fun _ => .bind (.ignore (keeps_saveCredentials fun _ _ => rfl)) fun _ => ?_
  exact .bind .get fun _ => .fail _

theorem verifyPinForToken_token (params : ClientPinParams) : Keeps Ctx.tokenView (verifyPinForToken crypto env params) := by
  refine .bind (deriveClientPinKeys_keeps params) fun keys => keeps_checked ?_
  exact .bind (verifyPinHash_token _ _) fun _ => .pure keys

theorem changePin_token (params : ClientPinParams) : Keeps Ctx.tokenView (changePin crypto env params) := by
  refine .bind .get fun ctx => keeps_checked <| keeps_checked ?_
  refine keeps_checked <| .bind (keeps_need _ _) fun param => keeps_checked ?_
  refine keeps_checked <| .bind (deriveClientPinKeys_keeps params) fun keys => ?_
  refine keeps_checked <| keeps_checked ?_
  refine .bind (verifyPinHash_token _ _) fun _ => .bind (decryptNewPin_keeps _ _) fun pin => ?_
  refine .bind .get fun before => .bind (.modify fun _ => rfl) fun _ => ?_
  refine .bind (keeps_trySave fun _ _ => rfl) fun saved => .ite ?_ ?_
  · exact .bind regenerateKeyAgreement_token fun _ => .pure _
  · exact .bind (.modify fun _ => rfl) fun _ => .fail _

/-- A PIN that is set refuses to be set once more. -/
theorem setPin_token (params : ClientPinParams) : Proc.Moves TokenStays (setPin crypto env params) := by
  have token : Keeps Ctx.token (setPin crypto env params) := by
    refine .bind .get fun ctx => keeps_checked <| keeps_checked ?_
    refine keeps_checked <| .bind (keeps_need _ _) fun param => ?_
    refine .bind (deriveClientPinKeys_keeps params) fun keys => keeps_checked ?_
    refine .bind (decryptNewPin_keeps _ _) fun pin => .bind (.modify fun _ => rfl) fun _ => ?_
    refine .bind (keeps_trySave fun _ _ => rfl) fun saved => .ite ?_ ?_
    · refine .bind (fun start => ?_) fun _ => .pure _
      exact congrArg Prod.fst (regenerateKeyAgreement_token start)
    · exact .bind (.modify fun _ => rfl) fun _ => .fail _
  intro ctx
  refine ⟨token ctx, fun set => ?_⟩
  have refused : setPin crypto env params ctx = (.error .notAllowed, ctx) := by
    unfold setPin
    rw [Proc.bind_of_ok (Proc.get_apply ctx)]
    unfold Command.check
    simp only [set, not_true_eq_false, if_false]
    rfl
  rw [refused]
  exact set

theorem setMinPinLength_token (params : ClientPinParams) : Keeps Ctx.tokenView (setMinPinLength crypto params) := by
  refine .bind .get fun ctx => keeps_checked <| .bind (keeps_need _ _) fun length => ?_
  refine keeps_checked <| .bind (keeps_need _ _) fun param => keeps_checked ?_
  exact keeps_checked <| keeps_checked <| .bind (.modify fun _ => rfl) fun _ => .pure _

/-- The token behind a draw in the place of another. -/
def Token.drawn (drawn : Option (Buf 32)) (issue : Buf 32 → Token) (last : Token) : Token :=
  drawn.elim { last with value := .zero 32 } issue

/-- Whatever follows the draw, the draw has settled the token by then. -/
theorem ends_issueToken {permissions : UInt32} {rpId : Blob 255} {next : Buf 32 → Command Reply}
    (rest : ∀ value, Keeps Ctx.tokenView (next value)) :
    Ends (issueToken env permissions rpId >>= next) ctx fun _ reached =>
      TokenStays ctx reached ∨ reached.token = .drawn env.pinToken (.bound · permissions rpId) ctx.token := by
  right
  unfold issueToken
  split
  next failed =>
    rw [failed]
    rfl
  next value succeeded =>
    rw [succeeded]
    exact congrArg Prod.fst (rest value _)

/-- Go on after a part that leaves the token alone. -/
theorem ends_besideToken {α : Type} {first : Command α} {next : α → Command Reply} {settled : Token → Token}
    (head : Keeps Ctx.tokenView first)
    (rest : ∀ value start, Ends (next value) start fun _ reached => TokenStays start reached ∨
    reached.token = settled start.token) :
    Ends (first >>= next) ctx fun _ reached => TokenStays ctx reached ∨ reached.token = settled ctx.token := by
  refine head.ends (fun problem reached same => .inl (.of_view same)) fun value start same => ?_
  refine (rest value start).mono fun outcome reached ended => ended.imp (fun stays => ?_) fun drawn => ?_
  · exact trans_of TokenStays (.of_view same) stays
  · rwa [(TokenStays.of_view same).1] at drawn

theorem getPinToken_token (params : ClientPinParams) (capacity : Nat) :
    Ends (getPinToken crypto env params capacity) ctx fun _ reached =>
      TokenStays ctx reached ∨ reached.token = .drawn env.pinToken (.bound · 0 (.empty _)) ctx.token := by
  refine ends_besideToken .get fun start _ => ends_besideToken (keeps_check _ _) fun _ _ => ends_besideToken
    (keeps_check _ _) fun _ _ => ?_
  refine ends_besideToken (keeps_check _ _) fun _ _ => ends_besideToken (keeps_check _ _) fun _ _ => ends_besideToken
    (verifyPinForToken_token params) fun keys _ => ?_
  refine ends_besideToken (.modify fun _ => rfl) fun _ _ => ends_issueToken fun token => .bind (keeps_need _ _)
    fun sealed => ?_
  exact .bind (keeps_need _ _) fun bytes => .bind regenerateKeyAgreement_token fun _ => .pure _

theorem sendToken_token (keys : PinKeys) (permissions : UInt32) (rpId : Blob 255) (capacity : Nat) :
    Ends (sendToken crypto env keys permissions rpId capacity) ctx fun _ reached =>
      TokenStays ctx reached ∨ reached.token = .drawn env.pinToken (.bound · permissions rpId) ctx.token := by
  refine ends_issueToken fun token => .bind (keeps_need _ _) fun sealed => ?_
  exact .bind regenerateKeyAgreement_token fun _ => .bind (keeps_need _ _) fun bytes => .pure _

theorem getPinTokenPerm_token (params : ClientPinParams) (capacity : Nat) :
    Ends (getPinTokenPerm crypto env params capacity) ctx fun _ reached => TokenStays ctx reached ∨
      reached.token = .drawn env.pinToken (.bound · (params.permissions.getD 0) params.rpId) ctx.token := by
  refine ends_besideToken .get fun start _ => ends_besideToken (keeps_check _ _) fun _ _ => ends_besideToken
    (keeps_check _ _) fun _ _ => ?_
  refine ends_besideToken (keeps_check _ _) fun _ start => ends_need (.inl (refl_of TokenStays start))
    fun permissions given => ?_
  refine ends_besideToken (keeps_check _ _) fun _ _ => ends_besideToken (keeps_check _ _) fun _ _ => ends_besideToken
    (verifyPinForToken_token params) fun keys _ => ?_
  refine ends_besideToken (.modify fun _ => rfl) fun _ _ => ?_
  rw [given]
  exact sendToken_token keys permissions params.rpId capacity

theorem getUvTokenPerm_token (params : ClientPinParams) (capacity : Nat) :
    Ends (getUvTokenPerm crypto env params capacity) ctx fun _ reached => TokenStays ctx reached ∨
      reached.token = .drawn env.pinToken (.bound · (params.permissions.getD 0) params.rpId) ctx.token := by
  refine ends_besideToken .get fun start _ => ends_besideToken (keeps_check _ _) fun _ start => ?_
  refine ends_need (.inl (refl_of TokenStays start)) fun permissions given => ?_
  refine ends_besideToken (keeps_check _ _) fun _ _ => ends_besideToken (keeps_check _ _) fun _ _ => ends_besideToken
    (deriveClientPinKeys_keeps params) fun keys _ => ?_
  rw [given]
  exact sendToken_token keys permissions params.rpId capacity

theorem clientPin_token (body : Bytes) (capacity : Nat) :
    Ends (clientPin crypto env body capacity) ctx fun _ reached => TokenStays ctx reached ∨
      ∃ params, parseClientPinParams body = .ok params ∧ params.subCommand.toNat ∈ [0x05, 0x06, 0x09] ∧
        reached.token = .drawn env.pinToken (issuedToken params) ctx.token := by
  have stays : TokenStays ctx ctx := refl_of TokenStays ctx
  refine ends_ofExcept (fun _ => .inl stays) fun params parsed => ends_check (.inl stays) fun _ => ?_
  have quiet {body : Command Reply} (keeps : Keeps Ctx.tokenView body) : TokenStays ctx (body ctx).2 := .of_view (keeps ctx)
  have legacy (five : params.subCommand.toNat = 0x05) : issuedToken params = (.bound · 0 (.empty _)) :=
    funext fun value => if_pos five
  have restricted (other : params.subCommand.toNat ≠ 0x05) :
      issuedToken params = (.bound · (params.permissions.getD 0) params.rpId) := funext fun value => if_neg other
  apply Ends.get
  split
  · exact .inl (quiet (keeps_sendItems _ _))
  · exact .inl (quiet (keeps_sendItems _ _))
  · exact .inl (setPin_token params ctx)
  · exact .inl (quiet (changePin_token params))
  next five =>
    refine (getPinToken_token params capacity).mono fun outcome reached ended => ended.imp_right fun drawn => ?_
    exact ⟨params, parsed, by rw [five]; decide, by rw [legacy five, drawn]⟩
  next six =>
    refine (getUvTokenPerm_token params capacity).mono fun outcome reached ended => ended.imp_right fun drawn => ?_
    exact ⟨params, parsed, by rw [six]; decide, by rw [restricted (by rw [six]; decide), drawn]⟩
  · exact .inl (quiet (keeps_sendItems _ _))
  · exact .inl (quiet (setMinPinLength_token params))
  next nine =>
    refine (getPinTokenPerm_token params capacity).mono fun outcome reached ended => ended.imp_right fun drawn => ?_
    exact ⟨params, parsed, by rw [nine]; decide, by rw [restricted (by rw [nine]; decide), drawn]⟩
  · exact .inl stays

/-- The next token, a failed draw for it, or none. -/
def EndsToken (event : Exchange) : Prop := IssuesToken event ∨ WipesToken event ∨ Resets event

/-- A token that goes out of force, or changes its value, goes with the next draw or with a
reset. -/
theorem event_token (ctx : Ctx) (request : Request) :
    TokenStays ctx ((authenticator crypto).event ctx request).after ∨
    EndsToken ((authenticator crypto).event ctx request) := by
  by_cases pins : request.command = .clientPin
  · have ended : Ends (process crypto request) ctx fun _ reached => TokenStays ctx reached ∨
        ∃ params, parseClientPinParams request.body = .ok params ∧ params.subCommand.toNat ∈ [0x05, 0x06, 0x09] ∧
          reached.token = .drawn request.env.pinToken (issuedToken params) ctx.token := by
      apply ends_process (by rw [pins]; decide)
      unfold dispatch
      rw [show Cmd.ofByte request.cmd = .clientPin from pins]
      exact clientPin_token request.body request.capacity
    refine Or.imp_right (fun settled => ?_) ended
    obtain ⟨params, parsed, draws, drawn⟩ := settled
    cases outcome : request.env.pinToken with
    | none =>
      rw [outcome] at drawn
      exact .inr (.inl ⟨pins, params, parsed, draws, outcome, drawn⟩)
    | some value =>
      rw [outcome] at drawn
      exact .inl ⟨pins, params, value, parsed, draws, outcome, drawn⟩
  by_cases resets : request.command = .reset
  · have ended : Ends (process crypto request) ctx fun outcome reached => TokenStays ctx reached ∨
      succeeds outcome = true := by
      apply ends_process (by rw [resets]; decide)
      unfold dispatch
      rw [show Cmd.ofByte request.cmd = .reset from resets]
      apply Ends.get
      exact ends_check (.inl ⟨rfl, id⟩) fun _ => ends_check (.inl ⟨rfl, id⟩) fun _ => .inr rfl
    exact Or.imp_right (fun done => .inr (.inr ⟨resets, done⟩)) ended
  · refine .inl (moves_process (fun ctx reached _ pin _ => ?_) (fun env ctx => ?_) request pins resets ctx)
    · exact ⟨by unfold Ctx.token; rw [pin], fun set => by rw [pin, set]⟩
    · rw [eq_save]
      exact ⟨rfl, id⟩

theorem changesPin_spec {event : Exchange} : changesPin event = true ↔ event.input.command = .clientPin ∧
    (∃ params, parseClientPinParams event.input.body = .ok params ∧ params.subCommand.toNat = 0x04) ∧
    succeeds event.outcome = true := by
  unfold changesPin pinSubCommand
  rw [Bool.and_eq_true, Bool.and_eq_true, decide_eq_true_eq, decide_eq_true_eq, and_assoc]
  cases parseClientPinParams event.input.body with
  | error problem => simp [Except.toOption]
  | ok params => simp [Except.toOption]

/-- A PIN can only be changed while one is set. -/
theorem changesPin_set {request : Request} (changes : changesPin ((authenticator crypto).event ctx request) = true) :
    ctx.pin.pinSet = true := by
  obtain ⟨pins, ⟨params, parsed, four⟩, done⟩ := changesPin_spec.mp changes
  have ended : Ends (process crypto request) ctx fun outcome _ => succeeds outcome = true → ctx.pin.pinSet = true := by
    apply ends_process (by rw [show request.command = _ from pins]; decide)
    unfold dispatch
    rw [show Cmd.ofByte request.cmd = .clientPin from pins]
    unfold clientPin
    rw [show parseClientPinParams request.body = _ from parsed]
    refine ends_check (fun done => by cases done) fun _ => ?_
    apply Ends.get
    rw [four]
    apply Ends.get
    exact ends_check (fun done => by cases done) fun set _ => set
  exact ended done

theorem changesPin_stays {request : Request} (changes : changesPin ((authenticator crypto).event ctx request) = true) :
    TokenStays ctx ((authenticator crypto).event ctx request).after := by
  obtain ⟨pins, ⟨params, parsed, four⟩, -⟩ := changesPin_spec.mp changes
  rcases event_token ctx request with stays | ⟨-, other, -, read, draws, -⟩ | ⟨-, other, read, draws, -⟩ | ⟨resets, -⟩
  · exact stays
  · cases parsed.symm.trans read
    rw [four] at draws
    exact absurd draws (by decide)
  · cases parsed.symm.trans read
    rw [four] at draws
    exact absurd draws (by decide)
  · cases pins.symm.trans resets

def Outlives (past : List Exchange) (ctx : Ctx) : Prop :=
  ∀ change, Since (fun earlier => earlier = change ∧ changesPin earlier = true) EndsToken past →
    ctx.token = change.before.token ∧ ctx.pin.pinSet = true ∧ change.before.pin.pinSet = true

theorem outlives_step {past : List Exchange} (outlives : Outlives past ctx) (request : Request) :
    Outlives (past ++ [(authenticator crypto).event ctx request]) ((authenticator crypto).event ctx request).after := by
  intro change since
  rcases since_snoc.mp since with ⟨rfl, changes⟩ | ⟨since, goesOn⟩
  · have stays := changesPin_stays changes
    have set := changesPin_set changes
    exact ⟨stays.1, stays.2 set, set⟩
  · obtain ⟨token, set, before⟩ := outlives change since
    rcases event_token ctx request with stays | ends
    · exact ⟨stays.1.trans token, stays.2 set, before⟩
    · exact absurd ends goesOn

theorem resets_token {request : Request} (resets : Resets ((authenticator crypto).event ctx request)) :
    ((authenticator crypto).event ctx request).after.pin.pinTokenValid = false := by
  obtain ⟨command, done⟩ := resets
  have ended : Ends (process crypto request) ctx fun outcome reached => succeeds outcome = true →
      reached.pin.pinTokenValid = false := by
    apply ends_process (by rw [show request.command = _ from command]; decide)
    unfold dispatch
    rw [show Cmd.ofByte request.cmd = .reset from command]
    apply Ends.get
    refine ends_check (fun done => by cases done) fun _ => ends_check (fun done => by cases done) fun _ _ => ?_
    change (saveCredentials crypto request.env (ctx.dropAssertion.cleared request.env)).2.pin.pinTokenValid = false
    rw [eq_save]
    rfl
  exact ended done

theorem performUv_valid {check : PinState → Blob 32 → Except Status Unit} {param : Option (Blob 32)}
    (given : param.isSome = true)
    (checked : ∀ value, check ctx.pin value = .ok () → ctx.pin.pinTokenValid = true)
    (passed : (performUv env param check ctx).1.isOk = true) : ctx.pin.pinTokenValid = true := by
  cases param with
  | none => cases given
  | some value =>
    change ((Command.ofExcept (check ctx.pin value) >>= _) ctx).1.isOk = true at passed
    cases outcome : check ctx.pin value with
    | error problem =>
      rw [outcome] at passed
      cases passed
    | ok done => exact checked value outcome

theorem checkPinUvAuth_valid {pin : PinState} {permission : UInt32} {rpId : Bytes} {param : Blob 32} {protocol : UInt32}
    {firstMessage secondMessage : Bytes}
    (passed : checkPinUvAuth crypto pin permission rpId param protocol firstMessage secondMessage = .ok ()) :
    pin.pinTokenValid = true := by
  cases valid : pin.pinTokenValid with
  | true => rfl
  | false =>
    unfold checkPinUvAuth at passed
    rw [valid] at passed
    cases passed

theorem authorize_valid {permission protocol : UInt32} {param : Option (Blob 32)} {message : Bytes} {short : Nat}
    (given : param.isSome = true) : Ends (authorize crypto env permission param protocol message short) ctx
      fun outcome _ => outcome.isOk = true → ctx.pin.pinTokenValid = true := by
  cases param with
  | none => cases given
  | some param =>
    apply Ends.get
    exact ends_check (fun passed => by cases passed) fun valid _ => valid

theorem setMinPinLength_valid (params : ClientPinParams) : Ends (setMinPinLength crypto params) ctx
    fun outcome _ => outcome.isOk = true → ctx.pin.pinTokenValid = true := by
  have failed (problem : Status) : (.error problem : Except Status Reply).isOk = true → ctx.pin.pinTokenValid = true :=
    fun passed => by cases passed
  apply Ends.get
  refine ends_check (failed _) fun _ => ends_need (failed _) fun length _ => ends_check (failed _) fun _ => ?_
  exact ends_need (failed _) fun param _ => ends_check (failed _) fun valid _ => valid

theorem any_implies {α : Type} {outcome : Except Status α} {holds : α → Bool} {goal : Prop}
    (each : ∀ value, holds value = true → goal) (any : outcome.toOption.any holds = true) : goal := by
  cases outcome with
  | error problem => cases any
  | ok value => exact each value any

/-- Without a token in force no parameter is accepted. -/
theorem accepts_valid {request : Request} (passes : accepts crypto request ctx = true) : ctx.pin.pinTokenValid = true := by
  unfold accepts at passes
  split at passes
  · refine any_implies (fun parsed passes => ?_) passes
    obtain ⟨given, passed⟩ := Bool.and_eq_true_iff.mp passes
    exact performUv_valid given (fun _ => checkPinUvAuth_valid) passed
  · refine any_implies (fun parsed passes => ?_) passes
    obtain ⟨given, passed⟩ := Bool.and_eq_true_iff.mp passes
    exact performUv_valid given (fun _ => checkPinUvAuth_valid) passed
  · refine any_implies (fun params passes => ?_) passes
    obtain ⟨given, passed⟩ := Bool.and_eq_true_iff.mp passes
    exact authorize_valid given passed
  · refine any_implies (fun params passes => ?_) passes
    obtain ⟨given, passed⟩ := Bool.and_eq_true_iff.mp passes
    exact authorize_valid given passed
  · refine any_implies (fun params passes => ?_) passes
    exact setMinPinLength_valid params (Bool.and_eq_true_iff.mp passes).2
  · cases passes

/-- A successful changePIN leaves the token in force, with the permissions and the party it
was issued for: until a token is issued, a draw for one fails or a reset, every later command
accepts what it would have accepted before the change. A reset leaves none. -/
theorem token_outlives_changePin (crypto : Crypto) (start : Ctx) (requests : List Request) :
    Throughout ((authenticator crypto).run start requests) fun past event =>
      (∀ change, Since (fun earlier => earlier = change ∧ changesPin earlier = true) EndsToken past →
        event.before.token = change.before.token ∧
        ∀ request, accepts crypto request event.before = accepts crypto request change.before) ∧
      (Resets event → ∀ request, accepts crypto request event.after = false) := by
  refine Machine.run_every Outlives (fun past ctx request outlives => outlives_step outlives request) ?_ ?_ requests
  · intro past ctx request outlives
    refine ⟨fun change since => ?_, fun resets other => ?_⟩
    · obtain ⟨token, set, before⟩ := outlives change since
      exact ⟨token, accepts_congr token (set.trans before.symm)⟩
    · apply Bool.eq_false_iff.mpr
      intro passes
      have valid := accepts_valid passes
      rw [resets_token resets] at valid
      cases valid
  · rintro change ⟨front, event, back, shape, -⟩
    cases front <;> cases shape

end

/-! Set a PIN, draw a token, change the PIN to 5678, and register under the token. -/

def changePinRequest : Request :=
  pinRequest 1 0xA6 0x04 ([0x04, 0x50] ++ List.replicate 16 0 ++ [0x05, 0x58, 0x40] ++ ascii "5678" ++ List.replicate 60 0 ++
    [0x06, 0x50] ++ (fitTo 16 (ascii "1234")).bytes)

def staleTokenRun : List Request :=
  [setPinRequest, pinTokenRequest "1234", changePinRequest,
    plainRequest 0x01 1 ([0xA6] ++ makeParams ++ [0x08, 0x50, 1] ++ List.replicate 15 0 ++ [0x09, 0x01])]

/-- The registration after the change is let through by the token from before it. -/
theorem changePin_keeps_stale_token :
    ¬ ∀ (crypto : Crypto) (key : Buf 32) (start : Ctx) (requests : List Request), Booted crypto key start →
      Throughout ((authenticator crypto).run start requests) fun past event =>
        Since (fun earlier => changesPin earlier = true) IssuesToken past →
        accepts crypto event.input event.before = false := by
  intro claimed
  have all := claimed tagCipher (.zero 32) (plainCtx false) staleTokenRun (.first (plainEnv 0) plainKeypair false)
  have marked : (((authenticator tagCipher).run (plainCtx false) staleTokenRun)[2]?.map changesPin) = some true :=
    by decide +kernel
  have used : (((authenticator tagCipher).run (plainCtx false) staleTokenRun)[3]?.map fun event =>
      accepts tagCipher event.input event.before) = some true := by decide +kernel
  obtain ⟨change, third, changes⟩ := Option.map_eq_some_iff.mp marked
  obtain ⟨event, fourth, passes⟩ := Option.map_eq_some_iff.mp used
  have since : Since (fun earlier => changesPin earlier = true) IssuesToken
      (((authenticator tagCipher).run (plainCtx false) staleTokenRun).take 3) := by
    have there : (((authenticator tagCipher).run (plainCtx false) staleTokenRun).take 3)[2]? = some change := by
      rw [List.getElem?_take_of_lt (by decide), third]
    exact .of_at there changes (by simp)
  rw [all.at fourth since] at passes
  cases passes

end Hiya.Fido2
