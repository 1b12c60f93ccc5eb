import Hiya.Proofs.TokenLifetime

/-! What an answer with an error says about the PIN. Both subcommands take back what they
cannot save, but a new PIN that is already saved stays when no key pair can be drawn
for the next exchange. -/

namespace Hiya.Fido2
open Library
open Proc (Ends Moves)

structure PinRecord where
  hash : Buf 16
  lock : PinLock

def PinState.record (pin : PinState) : PinRecord where
  hash := pin.pinHash
  lock := pin.lock

section
variable (crypto : Crypto) (key : Buf 32)

def PinState.Blank (pin : PinState) : Prop := pin.pinSet = false → pin.pinHash = .zero 16

structure BlankKept (ctx : Ctx) : Prop where
  wrap : ctx.wrapKey = some key
  blank : ctx.pin.Blank
  disk : ∀ file, ctx.disk = some file → ∃ (env : Env) (saver saved : Ctx), saver.wrapKey = some key ∧ saver.pin.Blank ∧
    saveCredentials crypto env saver = (.ok (), saved) ∧ saved.disk = some file

def BlankStays (before after : Ctx) : Prop := BlankKept crypto key before → BlankKept crypto key after

instance : IsPreorder Ctx (BlankStays crypto key) where
  refl _ kept := kept
  trans _ _ _ first second kept := second (first kept)

end

def Ctx.hashView (ctx : Ctx) : Option (Buf 32) × Bool × Buf 16 × Option Bytes :=
  (ctx.wrapKey, ctx.pin.pinSet, ctx.pin.pinHash, ctx.disk)

section
variable {crypto : Crypto} {key : Buf 32} {env : Env} {ctx reached : Ctx}

theorem BlankStays.of_view (same : reached.hashView = ctx.hashView) : BlankStays crypto key ctx reached := by
  intro kept
  obtain ⟨wrap, set, hash, disk⟩ : reached.wrapKey = ctx.wrapKey ∧ reached.pin.pinSet = ctx.pin.pinSet ∧
      reached.pin.pinHash = ctx.pin.pinHash ∧ reached.disk = ctx.disk := by
    simpa only [Ctx.hashView, Prod.mk.injEq] using same
  refine ⟨wrap.trans kept.wrap, fun unset => ?_, fun file held => kept.disk file (disk ▸ held)⟩
  exact hash.trans (kept.blank (set ▸ unset))

theorem blankStays_save : Moves (BlankStays crypto key) (saveCredentials crypto env) := by
  intro ctx kept
  rcases saveCredentials_failed ctx with done | same
  · refine ⟨by rw [eq_save]; exact kept.wrap, by rw [eq_save]; exact kept.blank, fun file held => ?_⟩
    exact ⟨env, ctx, _, kept.wrap, kept.blank, Prod.ext done rfl, held⟩
  · rwa [same]

theorem blankStays_keeps {α : Type} {body : Command α} (keeps : Proc.Keeps Ctx.hashView body) :
    Moves (BlankStays crypto key) body := fun ctx => .of_view (keeps ctx)

theorem regenerateKeyAgreement_hash : Proc.Keeps Ctx.hashView (regenerateKeyAgreement env) := by
  unfold regenerateKeyAgreement
  split
  · exact .bind (.modify fun _ => rfl) fun _ => .fail _
  · exact .modify fun _ => rfl

theorem issueToken_hash (permissions : UInt32) (rpId : Blob 255) :
    Proc.Keeps Ctx.hashView (issueToken env permissions rpId) := by
  unfold issueToken
  split
  · exact .bind (.modify fun _ => rfl) fun _ => .fail _
  · exact .bind (.modify fun _ => rfl) fun _ => .pure _

theorem sendToken_hash (keys : PinKeys) (permissions : UInt32) (rpId : Blob 255) (capacity : Nat) :
    Proc.Keeps Ctx.hashView (sendToken crypto env keys permissions rpId capacity) := by
  refine .bind (issueToken_hash _ _) fun token => .bind (keeps_need _ _) fun sealed => ?_
  exact .bind regenerateKeyAgreement_hash fun _ => .bind (keeps_need _ _) fun bytes => .pure _

theorem verifyPinForToken_blank (params : ClientPinParams) :
    Moves (BlankStays crypto key) (verifyPinForToken crypto env params) := by
  have charge (ctx : Ctx) : (ctx.updatePin chargeRetry).hashView = ctx.hashView := by
    unfold Ctx.updatePin chargeRetry
    dsimp only
    split
    · rfl
    · rfl
  refine .bind (blankStays_keeps (deriveClientPinKeys_keeps params)) fun keys => .bind (moves_check _ _) fun _ => ?_
  refine .bind (.bind (moves_need _ _) fun plain => .bind .get fun ctx => .ite (.pure ()) ?_) fun _ => .pure keys
  refine .bind (.modify fun ctx => .of_view (charge ctx)) fun _ => .bind (.ignore blankStays_save) fun _ => ?_
  exact .bind .get fun _ => .fail _

theorem getPinToken_blank (params : ClientPinParams) (capacity : Nat) :
    Moves (BlankStays crypto key) (getPinToken crypto env params capacity) := by
  refine .bind .get fun ctx => .bind (moves_check _ _) fun _ => .bind (moves_check _ _) fun _ => ?_
  refine .bind (moves_check _ _) fun _ => .bind (moves_check _ _) fun _ => .bind (verifyPinForToken_blank params)
    fun keys => ?_
  refine blankStays_keeps (.bind (.modify fun _ => rfl) fun _ => .bind (issueToken_hash _ _) fun token => ?_)
  exact .bind (keeps_need _ _) fun _ => .bind (keeps_need _ _) fun _ => .bind regenerateKeyAgreement_hash fun _ => .pure _

theorem getPinTokenPerm_blank (params : ClientPinParams) (capacity : Nat) :
    Moves (BlankStays crypto key) (getPinTokenPerm crypto env params capacity) := by
  refine .bind .get fun ctx => .bind (moves_check _ _) fun _ => .bind (moves_check _ _) fun _ => ?_
  refine .bind (moves_check _ _) fun _ => .bind (moves_need _ _) fun permissions => .bind (moves_check _ _) fun _ => ?_
  refine .bind (moves_check _ _) fun _ => .bind (verifyPinForToken_blank params) fun keys => ?_
  exact blankStays_keeps (.bind (.modify fun _ => rfl) fun _ => sendToken_hash _ _ _ _)

theorem getUvTokenPerm_hash (params : ClientPinParams) (capacity : Nat) :
    Proc.Keeps Ctx.hashView (getUvTokenPerm crypto env params capacity) := by
  refine .bind .get fun ctx => keeps_checked <| .bind (keeps_need _ _) fun permissions => ?_
  refine keeps_checked <| keeps_checked ?_
  exact .bind (deriveClientPinKeys_keeps params) fun keys => sendToken_hash _ _ _ _

theorem setMinPinLength_hash (params : ClientPinParams) : Proc.Keeps Ctx.hashView (setMinPinLength crypto params) := by
  refine .bind .get fun ctx => keeps_checked <| .bind (keeps_need _ _) fun length => ?_
  refine keeps_checked <| .bind (keeps_need _ _) fun param => keeps_checked ?_
  exact keeps_checked <| keeps_checked <| .bind (.modify fun _ => rfl) fun _ => .pure _

/-- A PIN that is put in force is blank neither before nor after it is taken back. -/
theorem installPin_blank {install takeBack : PinState → PinState} (kept : BlankKept crypto key ctx)
    (installed : (install ctx.pin).Blank) (undone : (takeBack (install ctx.pin)).Blank) :
    Ends (installPin crypto env install takeBack) ctx fun _ reached => BlankKept crypto key reached := by
  apply Ends.andThen
  have stored : BlankKept crypto key (saveCredentials crypto env (ctx.updatePin install)).2 :=
    blankStays_save (ctx.updatePin install) ⟨kept.wrap, installed, kept.disk⟩
  have pin : (saveCredentials crypto env (ctx.updatePin install)).2.pin = install ctx.pin := by
    rw [eq_save]
    rfl
  apply ends_trySave
  · intro _
    exact blankStays_keeps (.bind regenerateKeyAgreement_hash fun _ => .pure (Reply.data [])) _ stored
  · intro _
    apply Ends.andThen
    refine ⟨stored.wrap, ?_, stored.disk⟩
    change (takeBack (saveCredentials crypto env (ctx.updatePin install)).2.pin).Blank
    rw [pin]
    exact undone

theorem clientPin_blank (body : Bytes) (capacity : Nat) :
    Moves (BlankStays crypto key) (clientPin crypto env body capacity) := by
  refine .bind (moves_ofExcept _) fun params => .bind (moves_check _ _) fun _ => .bind .get fun _ => ?_
  split
  · exact moves_sendItems _ _
  · exact moves_sendItems _ _
  · intro ctx kept
    show Ends _ ctx fun _ reached => BlankKept crypto key reached
    apply setPin_cases
    · exact fun _ _ => kept
    · intro _ install _ shape
      obtain ⟨hash, installed⟩ := shape ctx.pin
      apply installPin_blank kept
      · rw [installed]
        exact fun unset => by cases unset
      · rw [installed]
        exact fun _ => rfl
  next four =>
    intro ctx kept
    show Ends _ ctx fun _ reached => BlankKept crypto key reached
    apply changePin_cases four
    · exact fun _ _ _ => kept
    · intro wrong _
      apply blankStays_save
      refine BlankStays.of_view ?_ kept
      unfold Ctx.updatePin chargeRetry
      dsimp only
      split
      · rfl
      · rfl
    · intro right install _ shape
      obtain ⟨hash, installed⟩ := shape ctx.pin
      have set : ctx.pin.pinSet = true := (hashVerdict_presents right).2.1
      apply installPin_blank kept
      · rw [installed]
        exact fun unset => by cases set.symm.trans unset
      · rw [installed]
        exact fun unset => by cases set.symm.trans unset
  · exact getPinToken_blank _ _
  · exact blankStays_keeps (getUvTokenPerm_hash _ _)
  · exact moves_sendItems _ _
  · exact blankStays_keeps (setMinPinLength_hash _)
  · exact getPinTokenPerm_blank _ _
  · exact .fail _

theorem process_blank (request : Request) : Moves (BlankStays crypto key) (process crypto request) := by
  have dropped (ctx : Ctx) : BlankStays crypto key ctx ctx.dropAssertion := .of_view rfl
  by_cases pins : request.command = .clientPin
  · intro ctx kept
    show Ends _ ctx fun _ reached => BlankKept crypto key reached
    apply ends_process (by rw [pins]; decide)
    unfold dispatch
    rw [show Cmd.ofByte request.cmd = .clientPin from pins]
    exact clientPin_blank _ _ _ (dropped ctx kept)
  by_cases resets : request.command = .reset
  · intro ctx kept
    show Ends _ ctx fun _ reached => BlankKept crypto key reached
    apply ends_process (by rw [resets]; decide)
    unfold dispatch
    rw [show Cmd.ofByte request.cmd = .reset from resets]
    apply Ends.get
    refine ends_check (dropped ctx kept) fun _ => ends_check (dropped ctx kept) fun _ => ?_
    apply Ends.andThen
    exact blankStays_save _ ⟨kept.wrap, fun _ => rfl, kept.disk⟩
  · exact moves_process (fun ctx reached wrap pin disk => .of_view (by simp only [Ctx.hashView, wrap, pin, disk]))
      (fun _ => blankStays_save) request pins resets

theorem run_blank {good : Exchange → Prop} {start : Ctx} (kept : BlankKept crypto key start)
    (makes : ∀ ctx request, BlankKept crypto key ctx → good ((authenticator crypto).event ctx request))
    (requests : List Request) :
    Throughout ((authenticator crypto).run start requests) fun _ event => good event := by
  refine Machine.run_every (fun _ ctx => BlankKept crypto key ctx) ?_ ?_ kept requests
  · exact fun past ctx request kept => process_blank request ctx kept
  · exact fun past ctx request kept => makes ctx request kept

/-- From any start-up on, a PIN state without a PIN holds no hash. -/
theorem Booted.blank (opens : crypto.OpensSealed) (booted : Booted crypto key ctx) : BlankKept crypto key ctx := by
  induction booted with
  | first env keypair verifyUser => exact ⟨rfl, fun _ => rfl, fun file held => by cases held⟩
  | @again env keypair verifyUser start earlier requests event ran ih =>
    have all : Throughout ((authenticator crypto).run start requests) fun _ event => BlankKept crypto key event.after :=
      run_blank ih (fun ctx request kept => process_blank request ctx kept) requests
    have left := all.of_mem ran
    cases held : event.after.disk with
    | none => exact ⟨rfl, fun _ => rfl, fun file held => by cases held⟩
    | some file =>
      obtain ⟨saveEnv, saver, saved, wrap, blank, done, disk⟩ := left.disk file held
      obtain ⟨wrap?, pin?, disk?⟩ := fido2Init_restart opens wrap done disk env keypair
      refine ⟨wrap?, ?_, fun stored there => ?_⟩
      · change (fido2Init crypto env keypair key (some file)).pin.Blank
        rw [pin?]
        exact blank
      · cases disk?.symm.trans there
        exact left.disk file held

end

section
variable (crypto : Crypto)

/-- The PIN state that a setPIN or changePIN request puts in force; there is none for
another request, and none when a check turns the request down. -/
def replacement (request : Request) (ctx : Ctx) : Option PinState :=
  match parseClientPinParams request.body with
  | .error _ => none
  | .ok params =>
    if params.pinProtocol = 1 ∨ params.pinProtocol = 2 then
      match params.subCommand.toNat with
      | 0x03 => firstPin crypto params ctx
      | 0x04 => laterPin crypto params ctx
      | _ => none
    else none

/-- A setPIN or changePIN request that is answered with an error, for another reason than
a wrong current PIN. -/
structure RefusedChange (event : Exchange) : Prop where
  command : event.input.command = .clientPin
  changes : pinSubCommand event.input = some 0x03 ∨ pinSubCommand event.input = some 0x04
  failed : succeeds event.outcome = false
  spared : guess crypto event.input event.before ≠ some false

/-- A request that passes every check and is saved, though no key pair can be drawn for
the exchange after it, and that puts in force what was not in force before. -/
structure Stranded (event : Exchange) (pin : PinState) : Prop where
  command : event.input.command = .clientPin
  passes : replacement crypto event.input event.before = some pin
  saves : (saveCredentials crypto event.input.env { event.before with pin }).1 = .ok ()
  keyless : event.input.env.ecdhKeypair = none
  differs : pin.record ≠ event.before.pin.record

/-- How a request ends that would put `pin` in force, when its hash was `tried`. -/
inductive ChangeEnd (env : Env) (ctx : Ctx) (tried : Option Bool) : Option PinState → Except Status Reply → Ctx → Prop
  | refused {problem : Status} {reached : Ctx} (same : tried ≠ some false → reached.pin.record = ctx.pin.record) :
      ChangeEnd env ctx tried none (.error problem) reached
  | undone {pin : PinState} {reached : Ctx} (lost : (saveCredentials crypto env { ctx with pin }).1 ≠ .ok ())
      (same : reached.pin.record = ctx.pin.record) : ChangeEnd env ctx tried (some pin) (.error .other) reached
  | stranded {pin : PinState} {reached : Ctx} (saved : (saveCredentials crypto env { ctx with pin }).1 = .ok ())
      (keyless : env.ecdhKeypair = none) (spared : tried ≠ some false) (inForce : reached.pin.record = pin.record) :
      ChangeEnd env ctx tried (some pin) (.error .other) reached
  | done {pin : PinState} {reached : Ctx} {reply : Reply} (drawn : env.ecdhKeypair.isSome = true) :
      ChangeEnd env ctx tried (some pin) (.ok reply) reached

end

section
variable {crypto : Crypto} {key : Buf 32} {env : Env} {ctx : Ctx}

/-- The writes of both subcommands, when taking back restores what was in force. -/
theorem installPin_end {tried : Option Bool} {install takeBack : PinState → PinState} (spared : tried ≠ some false)
    (undone : (takeBack (install ctx.pin)).record = ctx.pin.record) :
    Ends (installPin crypto env install takeBack) ctx (ChangeEnd crypto env ctx tried (some (install ctx.pin))) := by
  apply Ends.andThen
  have pin : (saveCredentials crypto env (ctx.updatePin install)).2.pin = install ctx.pin := by
    rw [eq_save]
    rfl
  apply ends_trySave
  · intro saved
    cases drawn : env.ecdhKeypair with
    | none =>
      unfold regenerateKeyAgreement
      rw [drawn]
      refine .stranded saved drawn spared ?_
      change (saveCredentials crypto env (ctx.updatePin install)).2.pin.record = _
      rw [pin]
    | some keypair =>
      unfold regenerateKeyAgreement
      rw [drawn]
      exact .done (by rw [drawn]; rfl)
  · intro lost
    apply Ends.andThen
    refine .undone lost ?_
    change (takeBack (saveCredentials crypto env (ctx.updatePin install)).2.pin).record = _
    rw [pin, undone]

theorem setPin_end {params : ClientPinParams} (blank : ctx.pin.Blank) (sound : PinSound ctx.pin.lock) :
    Ends (setPin crypto env params) ctx (ChangeEnd crypto env ctx none (firstPin crypto params ctx)) := by
  apply setPin_cases
  · intro none problem
    rw [none]
    exact .refused fun _ => rfl
  · intro unset install first shape
    obtain ⟨hash, installed⟩ := shape ctx.pin
    rw [first]
    apply installPin_end (by simp)
    have full : maxPinRetries = ctx.pin.pinRetries := (sound.unset unset).2.symm
    rw [installed]
    unfold PinState.record PinState.lock
    dsimp only
    rw [full, blank unset, unset]

theorem changePin_end {params : ClientPinParams} (four : params.subCommand.toNat = 0x04) :
    Ends (changePin crypto env params) ctx
      (ChangeEnd crypto env ctx (hashVerdict crypto params ctx) (laterPin crypto params ctx)) := by
  apply changePin_cases four
  · intro _ none problem
    rw [none]
    exact .refused fun _ => rfl
  · intro wrong problem
    rw [laterPin, wrong]
    exact .refused fun spared => absurd rfl spared
  · intro right install later shape
    obtain ⟨hash, installed⟩ := shape ctx.pin
    rw [later]
    apply installPin_end (by rw [right]; simp)
    rw [installed]

theorem saveCredentials_saves (ctx : Ctx) : (saveCredentials crypto env ctx).1 = .ok () ↔
    ∃ nonce key, env.saveNonce = some nonce ∧ ctx.wrapKey = some key ∧
      (crypto.gcmSeal key nonce (storeHeader storeVersion ctx.credentialCount ctx.globalSignCount.toNat)
        (.ofBytes (storePlaintext ctx) rfl)).isSome = true := by
  unfold saveCredentials
  rw [Proc.bind_of_ok (Proc.get_apply ctx)]
  cases env.saveNonce with
  | none => simp
  | some nonce =>
    cases ctx.wrapKey with
    | none => simp
    | some key =>
      simp only [Option.some.injEq, exists_and_left, exists_eq_left']
      cases crypto.gcmSeal key nonce (storeHeader storeVersion ctx.credentialCount ctx.globalSignCount.toNat)
        (.ofBytes (storePlaintext ctx) rfl) with
      | none => simp
      | some sealed => simp

theorem saves_dropAssertion (pin : PinState) : (saveCredentials crypto env { ctx.dropAssertion with pin }).1 = .ok () ↔
    (saveCredentials crypto env { ctx with pin }).1 = .ok () := by
  rw [saveCredentials_saves, saveCredentials_saves]
  exact Iff.rfl

/-- An end that is an error changes the record in one case only. -/
theorem ChangeEnd.keeps_iff {tried : Option Bool} {passes : Option PinState} {outcome : Except Status Reply} {reached : Ctx}
    (ended : ChangeEnd crypto env ctx.dropAssertion tried passes outcome reached) :
    (succeeds outcome = false → tried ≠ some false → reached.pin.record = ctx.pin.record) ↔
      ¬ ∃ pin, passes = some pin ∧ (saveCredentials crypto env { ctx with pin }).1 = .ok () ∧ env.ecdhKeypair = none ∧
        pin.record ≠ ctx.pin.record := by
  cases ended with
  | refused same =>
    apply iff_of_true
    · exact fun _ spared => same spared
    · rintro ⟨pin, passes, -⟩
      cases passes
  | undone lost same =>
    apply iff_of_true
    · exact fun _ _ => same
    · rintro ⟨pin, passes, saves, -⟩
      cases passes
      exact lost ((saves_dropAssertion _).mpr saves)
  | @stranded pin reached saved keyless spared inForce =>
    constructor
    · rintro same ⟨pin, passes, -, -, differs⟩
      cases passes
      exact differs (inForce.symm.trans (same rfl spared))
    · intro settled _ _
      by_contra differs
      exact settled ⟨pin, rfl, (saves_dropAssertion _).mp saved, keyless, fun same => differs (inForce.trans same)⟩
  | done drawn =>
    apply iff_of_true
    · exact fun failed => by cases failed
    · rintro ⟨pin, -, -, keyless, -⟩
      rw [keyless] at drawn
      cases drawn

/-- Every setPIN and every changePIN request ends in one of these ways. -/
theorem process_changeEnd {request : Request} (command : request.command = .clientPin)
    (changes : pinSubCommand request = some 0x03 ∨ pinSubCommand request = some 0x04) (blank : ctx.pin.Blank)
    (sound : PinSound ctx.pin.lock) :
    Ends (process crypto request) ctx
      (ChangeEnd crypto request.env ctx.dropAssertion (guess crypto request ctx) (replacement crypto request ctx)) := by
  apply ends_process (by rw [command]; decide)
  unfold dispatch guess replacement clientPin
  rw [show Cmd.ofByte request.cmd = .clientPin from command, if_neg (not_not.mpr command)]
  unfold pinSubCommand at changes
  cases parsed : parseClientPinParams request.body with
  | error problem =>
    rw [parsed] at changes
    simp [Except.toOption] at changes
  | ok params =>
    rw [parsed] at changes
    simp only [Except.toOption, Option.map_some, Option.some.injEq] at changes
    apply ends_guard
    · intro other
      simp only [if_neg other]
      exact .refused fun _ => rfl
    intro protocol
    simp only [if_pos protocol]
    apply Ends.get
    rcases changes with three | four
    · rw [three, hashVerdict_other (by rw [three]; decide)]
      exact setPin_end blank sound
    · rw [four]
      exact changePin_end four

/-- Only these two subcommands put a PIN in force. -/
theorem replacement_changes {request : Request} {pin : PinState} (passes : replacement crypto request ctx = some pin) :
    pinSubCommand request = some 0x03 ∨ pinSubCommand request = some 0x04 := by
  unfold replacement at passes
  unfold pinSubCommand
  cases parsed : parseClientPinParams request.body with
  | error problem =>
    rw [parsed] at passes
    cases passes
  | ok params =>
    rw [parsed] at passes
    dsimp only at passes
    split at passes
    · split at passes
      next three => exact .inl (congrArg some three)
      next four => exact .inr (congrArg some four)
      · cases passes
    · cases passes

theorem refused_step (kept : PinKept crypto key ctx) (blank : BlankKept crypto key ctx) (request : Request) :
    (RefusedChange crypto ((authenticator crypto).event ctx request) →
        (process crypto request ctx).2.pin.record = ctx.pin.record) ↔
      ¬ ∃ pin, Stranded crypto ((authenticator crypto).event ctx request) pin := by
  have ends (command : request.command = .clientPin) (changes : pinSubCommand request = some 0x03 ∨
    pinSubCommand request = some 0x04) :=
    (process_changeEnd command changes blank.blank kept.sound : Ends (process crypto request) ctx _).keeps_iff
  constructor
  · rintro same ⟨pin, command, passes, saves, keyless, differs⟩
    have changes := replacement_changes passes
    refine (ends command changes).mp (fun failed spared => ?_) ⟨pin, passes, saves, keyless, differs⟩
    exact same ⟨command, changes, failed, spared⟩
  · intro settled refused
    refine (ends refused.command refused.changes).mpr ?_ refused.failed refused.spared
    rintro ⟨pin, passes, saves, keyless, differs⟩
    exact settled ⟨pin, refused.command, passes, saves, keyless, differs⟩

end

/-- From any start-up on, a refused change leaves the PIN, its flag, the retries and the
block as they were, except where the new PIN is saved and no key pair can be drawn. -/
theorem refused_change_keeps_pin_iff (crypto : Crypto) (opens : crypto.OpensSealed) (key : Buf 32) (start : Ctx)
    (booted : Booted crypto key start) (requests : List Request) :
    ∀ event ∈ (authenticator crypto).run start requests,
      (RefusedChange crypto event → event.after.pin.record = event.before.pin.record) ↔
      ¬ ∃ pin, Stranded crypto event pin := by
  have steps : Throughout ((authenticator crypto).run start requests) fun _ event =>
      (RefusedChange crypto event → event.after.pin.record = event.before.pin.record) ↔
        ¬ ∃ pin, Stranded crypto event pin := by
    refine Machine.run_every (fun _ ctx => PinKept crypto key ctx ∧ BlankKept crypto key ctx) ?_ ?_
      ⟨booted.kept opens, booted.blank opens⟩ requests
    · exact fun past ctx request kept => ⟨(process_lock request kept.1).1, process_blank request ctx kept.2⟩
    · exact fun past ctx request kept => refused_step kept.1 kept.2 request
  exact fun event inside => steps.of_mem inside

/-- The PIN 1234 is set while the file cannot be written. -/
def unsavedPinRequest : Request := { setPinRequest with env := { setPinRequest.env with saveNonce := none } }

theorem refused_change_keeps_pin_unsaved :
    ((authenticator tagCipher).event (plainCtx false) unsavedPinRequest).after.pin.record =
      ((authenticator tagCipher).event (plainCtx false) unsavedPinRequest).before.pin.record := by
  have settled := refused_change_keeps_pin_iff tagCipher tagCipher_opens (.zero 32) (plainCtx false)
    (.first (plainEnv 0) plainKeypair false) [unsavedPinRequest]
      ((authenticator tagCipher).event (plainCtx false) unsavedPinRequest)
    (by rw [Machine.run_singleton]; exact List.mem_singleton_self _)
  have refused : pinSubCommand unsavedPinRequest = some 0x03 ∧
      succeeds ((authenticator tagCipher).event (plainCtx false) unsavedPinRequest).outcome = false ∧
      guess tagCipher unsavedPinRequest (plainCtx false) ≠ some false := by decide +kernel
  apply settled.mpr
  · intro reached
    obtain ⟨pin, stranded⟩ := reached
    cases stranded.keyless
  · exact ⟨rfl, .inl refused.1, refused.2.1, refused.2.2⟩

def keylessPinRequest : Request := { setPinRequest with env := { setPinRequest.env with ecdhKeypair := none } }

theorem refused_set_leaves_pin :
    ¬ ∀ (crypto : Crypto) (key : Buf 32) (start : Ctx) (requests : List Request), crypto.OpensSealed →
    Booted crypto key start →
      ∀ event ∈ (authenticator crypto).run start requests,
        RefusedChange crypto event → event.after.pin.record = event.before.pin.record := by
  intro claimed
  have same := claimed tagCipher (.zero 32) (plainCtx false) [keylessPinRequest] tagCipher_opens
    (.first (plainEnv 0) plainKeypair false) ((authenticator tagCipher).event (plainCtx false) keylessPinRequest)
    (by rw [Machine.run_singleton]; exact List.mem_singleton_self _)
  have refused : pinSubCommand keylessPinRequest = some 0x03 ∧
      succeeds ((authenticator tagCipher).event (plainCtx false) keylessPinRequest).outcome = false ∧
      guess tagCipher keylessPinRequest (plainCtx false) ≠ some false ∧
      ((authenticator tagCipher).event (plainCtx false) keylessPinRequest).after.pin.record.lock.set = true :=
        by decide +kernel
  have unset := same ⟨rfl, .inl refused.1, refused.2.1, refused.2.2.1⟩
  rw [unset] at refused
  cases refused.2.2.2

end Hiya.Fido2
