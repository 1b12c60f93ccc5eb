import Hiya.Proofs.CommandSteps

/-! setPIN, changePIN and the comparison of a PIN hash, followed once from their first check
to their last write: what a request presents, what it would put in force, and the ways
it can end. -/

namespace Hiya.Fido2
open Library
open Proc (Ends)

/-- The checks of changePIN, getPinToken and getPinUvAuthTokenUsingPin that need no
keys. -/
def PresentsHash (params : ClientPinParams) (pin : PinState) : Prop :=
  params.subCommand.toNat ∈ [0x04, 0x05, 0x09] ∧ pin.pinSet ∧ ¬ pin.pinBlocked ∧ params.hasKeyAgreement ∧
    params.pinHashEnc.bytes.length ≠ 0 ∧
    (params.subCommand.toNat = 0x04 → params.pinUvAuthParam.isSome ∧ params.newPinEnc.bytes.length ≠ 0) ∧
    (params.subCommand.toNat = 0x09 → params.permissions.isSome ∧ params.permissions ≠ some 0)

instance (params : ClientPinParams) (pin : PinState) : Decidable (PresentsHash params pin) :=
  inferInstanceAs (Decidable (_ ∧ _))

section
variable (crypto : Crypto)

def HashArrives (params : ClientPinParams) (keys : PinKeys) : Prop :=
  if params.subCommand.toNat = 0x04 then
    (params.pinUvAuthParam.any fun param =>
      decide (authenticates crypto keys.hmac (params.newPinEnc.bytes ++ params.pinHashEnc.bytes) param)) ∧
    params.pinHashEnc.bytes.length % 16 = 0
  else params.pinHashEnc.bytes.length ∈ [16, 32, 48, 64]

instance (params : ClientPinParams) (keys : PinKeys) : Decidable (HashArrives crypto params keys) :=
  inferInstanceAs (Decidable (if params.subCommand.toNat = 0x04 then _ ∧ _ else _ ∈ [16, 32, 48, 64]))

/-- Whether the hash that a clientPIN request presents is the stored one. There is no
answer when the request is turned down before its hash is looked at. -/
def hashVerdict (params : ClientPinParams) (ctx : Ctx) : Option Bool :=
  if PresentsHash params ctx.pin then
    match derivePinKeys crypto ctx.authPrivkey params with
    | .error _ => none
    | .ok keys =>
      if HashArrives crypto params keys then
        (decryptBlob crypto keys.aes params.pinHashEnc).map fun plain => plain.take 16 = ctx.pin.pinHash.bytes
      else none
  else none

/-- The guess a request makes at the PIN: a right one, a wrong one, or none. -/
def guess (request : Request) (ctx : Ctx) : Option Bool :=
  if request.command ≠ .clientPin then none
  else match parseClientPinParams request.body with
    | .error _ => none
    | .ok params => if params.pinProtocol = 1 ∨ params.pinProtocol = 2 then hashVerdict crypto params ctx else none

end

section
variable (crypto : Crypto)

def newPin (aes : Buf 32) (newPinEnc : Blob 256) (ctx : Ctx) : Option Bytes :=
  if newPinEnc.bytes.length % 16 = 0 then
    ((decryptBlob crypto aes newPinEnc).map stripPadding).filter fun pin =>
      ¬ (pin.length < ctx.minPinLength.toNat ∨ pin.length > 63)
  else none

def firstPin (params : ClientPinParams) (ctx : Ctx) : Option PinState :=
  if ¬ ctx.pin.pinSet ∧ params.hasKeyAgreement ∧ params.newPinEnc.bytes.length ≠ 0 then
    params.pinUvAuthParam.bind fun param =>
      (derivePinKeys crypto ctx.authPrivkey params).toOption.bind fun keys =>
        if authenticates crypto keys.hmac params.newPinEnc.bytes param then
          (newPin crypto keys.aes params.newPinEnc ctx).map fun pin =>
            { ctx.pin with pinHash := pinHashOf crypto pin, pinSet := true, pinRetries := maxPinRetries }
        else none
  else none

def laterPin (params : ClientPinParams) (ctx : Ctx) : Option PinState :=
  if hashVerdict crypto params ctx = some true then
    (derivePinKeys crypto ctx.authPrivkey params).toOption.bind fun keys =>
      (newPin crypto keys.aes params.newPinEnc ctx).map fun pin =>
        { ctx.pin with pinHash := pinHashOf crypto pin, pinRetries := maxPinRetries, pinBlocked := false }
  else none

end

section
variable {crypto : Crypto} {env : Env} {ctx : Ctx} {params : ClientPinParams}

theorem hashVerdict_absent (absent : ¬ PresentsHash params ctx.pin) : hashVerdict crypto params ctx = none := by
  rw [hashVerdict, if_neg absent]

theorem hashVerdict_keyless {problem : Status} (failed : derivePinKeys crypto ctx.authPrivkey params = .error problem) :
    hashVerdict crypto params ctx = none := by
  unfold hashVerdict
  rw [failed]
  simp

theorem hashVerdict_stopped {keys : PinKeys} (derived : derivePinKeys crypto ctx.authPrivkey params = .ok keys)
    (stopped : ¬ HashArrives crypto params keys) : hashVerdict crypto params ctx = none := by
  unfold hashVerdict
  rw [derived]
  simp [stopped]

theorem hashVerdict_compared {keys : PinKeys} (presents : PresentsHash params ctx.pin)
    (derived : derivePinKeys crypto ctx.authPrivkey params = .ok keys) (arrives : HashArrives crypto params keys) :
    hashVerdict crypto params ctx =
      (decryptBlob crypto keys.aes params.pinHashEnc).map fun plain => decide (plain.take 16 = ctx.pin.pinHash.bytes) := by
  unfold hashVerdict
  rw [if_pos presents, derived]
  exact if_pos arrives

theorem hashVerdict_other (other : params.subCommand.toNat ∉ [0x04, 0x05, 0x09]) : hashVerdict crypto params ctx = none :=
  hashVerdict_absent fun presents => other presents.1

/-- A hash is only looked at while a PIN is set and not blocked. -/
theorem hashVerdict_presents {right : Bool} (verdict : hashVerdict crypto params ctx = some right) :
    PresentsHash params ctx.pin := by
  by_contra absent
  rw [hashVerdict_absent absent] at verdict
  cases verdict

variable {β : Type} {post : Except Status β → Ctx → Prop}

theorem ends_deriveKeys {next : PinKeys → Command β}
    (failed : ∀ problem, derivePinKeys crypto ctx.authPrivkey params = .error problem → post (.error problem) ctx)
    (rest : ∀ keys, derivePinKeys crypto ctx.authPrivkey params = .ok keys → Ends (next keys) ctx post) :
    Ends (deriveClientPinKeys crypto params >>= next) ctx post := by
  apply Ends.bind
  apply Ends.get
  cases outcome : derivePinKeys crypto ctx.authPrivkey params with
  | error problem => exact failed problem outcome
  | ok keys => exact rest keys outcome

/-- The new PIN is taken apart without touching the context. -/
theorem ends_decryptNewPin {aes : Buf 32} {newPinEnc : Blob 256} {next : Bytes → Command β}
    (failed : newPin crypto aes newPinEnc ctx = none → ∀ problem, post (.error problem) ctx)
    (rest : ∀ pin, newPin crypto aes newPinEnc ctx = some pin → Ends (next pin) ctx post) :
    Ends (decryptNewPin crypto aes newPinEnc >>= next) ctx post := by
  unfold newPin at failed rest
  apply Ends.bind
  apply ends_guard
  · intro ragged
    exact failed (if_neg ragged) _
  intro aligned
  simp only [if_pos aligned] at failed rest
  apply ends_value
  · intro missing
    exact failed (by rw [missing]; rfl) _
  intro raw found
  simp only [found, Option.map_some] at failed rest
  apply Ends.get
  apply ends_guard
  · intro refused
    exact failed (Option.filter_some_neg (by simpa using refused)) _
  · intro allowed
    exact rest (stripPadding raw) (Option.filter_some_pos (by simpa using allowed))

/-- The comparison of a hash that has arrived. A wrong one is charged and written out. -/
theorem ends_compareHash {keys : PinKeys} {next : Unit → Command β} (presents : PresentsHash params ctx.pin)
    (derived : derivePinKeys crypto ctx.authPrivkey params = .ok keys) (arrives : HashArrives crypto params keys)
    (missing : hashVerdict crypto params ctx = none → ∀ problem, post (.error problem) ctx)
    (wrong : hashVerdict crypto params ctx = some false → ∀ problem,
      post (.error problem) (saveCredentials crypto env (ctx.updatePin chargeRetry)).2)
    (right : hashVerdict crypto params ctx = some true → Ends (next ()) ctx post) :
    Ends (verifyPinHash crypto env keys.aes params.pinHashEnc >>= next) ctx post := by
  rw [hashVerdict_compared presents derived arrives] at missing wrong right
  apply Ends.bind
  apply ends_value
  · intro garbled
    exact missing (by rw [garbled]; rfl) _
  intro plain found
  simp only [found, Option.map_some] at wrong right
  apply Ends.get
  apply Ends.ite
  · intro same
    exact right (by rw [decide_eq_true same])
  · intro differs
    apply Ends.andThen
    exact wrong (by rw [decide_eq_false differs]) _

/-! The writes at the end of both subcommands. -/

def installPin (crypto : Crypto) (env : Env) (install takeBack : PinState → PinState) : Command Reply := do
  Proc.modify (Ctx.updatePin install)
  if ← trySave crypto env then do
    regenerateKeyAgreement env
    pure (.data [])
  else do
    Proc.modify (Ctx.updatePin takeBack)
    Proc.fail .other

variable {post : Except Status Reply → Ctx → Prop}

/-- A setPIN request is turned down before any write, or it installs its PIN. -/
theorem setPin_cases (refused : firstPin crypto params ctx = none → ∀ problem, post (.error problem) ctx)
    (installs : ctx.pin.pinSet = false → ∀ install, firstPin crypto params ctx = some (install ctx.pin) →
      (∀ pin, ∃ hash, install pin = { pin with pinHash := hash, pinSet := true, pinRetries := maxPinRetries }) →
      Ends (installPin crypto env install fun state => { state with pinSet := false, pinHash := .zero 16 }) ctx post) :
    Ends (setPin crypto env params) ctx post := by
  unfold firstPin at refused installs
  apply Ends.get
  apply ends_guard
  · intro set
    exact refused (if_neg fun passes => set passes.1) _
  intro unset
  apply ends_guard
  · intro absent
    exact refused (if_neg fun passes => absent passes.2.1) _
  intro agreement
  apply ends_guard
  · intro empty
    exact refused (if_neg fun passes => empty passes.2.2) _
  intro renewed
  rw [if_pos ⟨unset, agreement, renewed⟩] at refused installs
  apply ends_value
  · intro missing
    exact refused (by rw [missing]; rfl) _
  intro param given
  simp only [given, Option.bind_some] at refused installs
  apply ends_deriveKeys
  · intro problem failed
    exact refused (by rw [failed]; rfl) _
  intro keys derived
  simp only [derived, Except.toOption, Option.bind_some] at refused installs
  apply ends_guard
  · intro forged
    exact refused (if_neg forged) _
  intro authentic
  rw [if_pos authentic] at refused installs
  apply ends_decryptNewPin
  · intro none
    exact refused (by rw [none]; rfl)
  intro pin found
  have open? : ctx.pin.pinSet = false := by simpa using unset
  exact installs open? _ (by rw [found]; rfl) fun pin => ⟨_, rfl⟩

/-- A changePIN request is turned down before any write, charged for a wrong hash, or it
installs its PIN. -/
theorem changePin_cases (changes : params.subCommand.toNat = 0x04)
    (refused : hashVerdict crypto params ctx ≠ some false → laterPin crypto params ctx = none → ∀ problem,
      post (.error problem) ctx)
    (charged : hashVerdict crypto params ctx = some false → ∀ problem,
      post (.error problem) (saveCredentials crypto env (ctx.updatePin chargeRetry)).2)
    (installs : hashVerdict crypto params ctx = some true → ∀ install, laterPin crypto params ctx = some (install ctx.pin) →
      (∀ pin, ∃ hash, install pin = { pin with pinHash := hash, pinRetries := maxPinRetries, pinBlocked := false }) →
      Ends (installPin crypto env install fun state => { state with
        pinHash := ctx.pin.pinHash, pinRetries := ctx.pin.pinRetries, pinBlocked := ctx.pin.pinBlocked }) ctx post) :
    Ends (changePin crypto env params) ctx post := by
  have silent (none : hashVerdict crypto params ctx = none) (problem : Status) : post (.error problem) ctx := by
    refine refused (by rw [none]; simp) ?_ problem
    rw [laterPin, none]
    rfl
  have absent (missing : ¬ PresentsHash params ctx.pin) (problem : Status) : post (.error problem) ctx :=
    silent (hashVerdict_absent missing) problem
  apply Ends.get
  refine ends_guard (fun no => absent (fun presents => no presents.2.1) _) fun set => ?_
  refine ends_guard (fun no => absent (fun presents => no presents.2.2.1) _) fun open? => ?_
  refine ends_guard (fun no => absent (fun presents => no presents.2.2.2.1) _) fun agreement => ?_
  refine ends_value (fun none => absent (fun presents => ?_) _) fun param given => ?_
  · have some? := (presents.2.2.2.2.2.1 changes).1
    rw [none] at some?
    cases some?
  refine ends_guard (fun no => absent (fun presents => no presents.2.2.2.2.1) _) fun hashed => ?_
  refine ends_guard (fun no => absent (fun presents => no (presents.2.2.2.2.2.1 changes).2) _) fun renewed => ?_
  have presents : PresentsHash params ctx.pin :=
    ⟨by rw [changes]; decide, set, open?, agreement, hashed, fun _ => ⟨by rw [given]; rfl, renewed⟩,
      fun nine => absurd (changes.symm.trans nine) (by decide)⟩
  refine ends_deriveKeys (fun problem failed => silent (hashVerdict_keyless failed) _) fun keys derived => ?_
  have stopped (short : ¬ HashArrives crypto params keys) (problem : Status) : post (.error problem) ctx :=
    silent (hashVerdict_stopped derived short) problem
  have shape : HashArrives crypto params keys ↔
      authenticates crypto keys.hmac (params.newPinEnc.bytes ++ params.pinHashEnc.bytes) param ∧
        params.pinHashEnc.bytes.length % 16 = 0 := by
    rw [HashArrives, if_pos changes, given, Option.any_some, decide_eq_true_eq]
  refine ends_guard (fun no => stopped (fun arrives => no (shape.mp arrives).1) _) fun authentic => ?_
  refine ends_guard (fun no => stopped (fun arrives => no (shape.mp arrives).2) _) fun aligned => ?_
  refine ends_compareHash presents derived (shape.mpr ⟨authentic, aligned⟩) silent charged fun right => ?_
  have later : laterPin crypto params ctx = (newPin crypto keys.aes params.newPinEnc ctx).map fun pin =>
      { ctx.pin with pinHash := pinHashOf crypto pin, pinRetries := maxPinRetries, pinBlocked := false } := by
    rw [laterPin, if_pos right, derived]
    rfl
  refine ends_decryptNewPin (fun none => refused (by rw [right]; simp) (by rw [later, none]; rfl)) fun pin found => ?_
  apply Ends.get
  exact installs right _ (by rw [later, found]; rfl) fun pin => ⟨_, rfl⟩

end

end Hiya.Fido2
