import Hiya.Library.Ends
import Hiya.Fido2.Process

/-! The part of the context each family of commands works on. A command that keeps a
context with that part blanked out has changed nothing beside it. -/

namespace Hiya.Fido2
open Library Cbor
open Proc (Keeps Moves)

def Ctx.besidePin (ctx : Ctx) : Ctx :=
  { ctx with pin := .zero, authPrivkey := .zero 32, authPubkey := .zero 65, disk := none }

def Ctx.besideBio (ctx : Ctx) : Ctx :=
  { ctx with bioTemplates := fun _ => .zero, bioTemplateCount := 0, bioEnrollActive := none }

def Ctx.besideEnum (ctx : Ctx) : Ctx := { ctx with credEnum := .zero }

def Ctx.besideDisk (ctx : Ctx) : Ctx := { ctx with disk := none }

theorem eq_of_besideBio {ctx reached : Ctx} (same : reached.besideBio = ctx.besideBio) :
    reached = { ctx with
      bioTemplates := reached.bioTemplates
      bioTemplateCount := reached.bioTemplateCount
      bioEnrollActive := reached.bioEnrollActive } := by
  cases ctx
  cases reached
  simp only [Ctx.besideBio, Ctx.mk.injEq] at same ⊢
  simp only [same, and_self]

theorem eq_of_besideEnum {ctx reached : Ctx} (same : reached.besideEnum = ctx.besideEnum) :
    reached = { ctx with credEnum := reached.credEnum } := by
  cases ctx
  cases reached
  simp only [Ctx.besideEnum, Ctx.mk.injEq] at same ⊢
  simp only [same, and_self]

theorem eq_of_besideDisk {ctx reached : Ctx} (same : reached.besideDisk = ctx.besideDisk) :
    reached = { ctx with disk := reached.disk } := by
  cases ctx
  cases reached
  simp only [Ctx.besideDisk, Ctx.mk.injEq] at same ⊢
  simp only [same, and_self]

section
variable {α : Type} {rel : Ctx → Ctx → Prop} [IsPreorder Ctx rel]

theorem moves_need (value : Option α) (problem : Status) : Moves rel (Command.need value problem) := by
  cases value with
  | none => exact .fail problem
  | some value => exact .pure value

theorem moves_ofExcept (outcome : Except Status α) : Moves rel (Command.ofExcept outcome) := by
  cases outcome with
  | error problem => exact .fail problem
  | ok value => exact .pure value

theorem moves_check (holds : Prop) [Decidable holds] (problem : Status) : Moves rel (Command.check holds problem) :=
  .ite (.pure ()) (.fail problem)

theorem moves_sendItems (capacity : Nat) (items : List (Encode Unit)) : Moves rel (sendItems capacity items) :=
  .bind (moves_need _ _) fun _ => .pure _

theorem moves_getInfo (capacity : Nat) : Moves rel (getInfo capacity) := .bind .get fun _ => moves_sendItems _ _

theorem moves_selection {env : Env} : Moves rel (selection env) :=
  .bind .get fun _ => .bind (moves_check _ _) fun _ => .pure _

theorem moves_authorize {crypto : Crypto} {env : Env} (permission : UInt32) (param : Option (Blob 32)) (protocol : UInt32)
    (message : Bytes) (short : Nat) : Moves rel (authorize crypto env permission param protocol message short) := by
  refine .bind .get fun ctx => ?_
  split
  · refine .bind (moves_check _ _) fun _ => .bind (moves_check _ _) fun _ => .bind (moves_check _ _) fun _ => ?_
    exact .bind (moves_check _ _) fun _ => moves_check _ _
  · exact .ite (moves_check _ _) (.fail _)

theorem moves_performUv {env : Env} (param : Option (Blob 32)) (check : PinState → Blob 32 → Except Status Unit) :
    Moves rel (performUv env param check) := by
  refine .bind .get fun ctx => ?_
  split
  · exact .bind (moves_ofExcept _) fun _ => .pure _
  · refine .ite (.ite (.pure _) (.fail _)) (.pure _)

end

/-- To keep a view is a preorder on contexts. -/
instance {γ : Type} (view : Ctx → γ) : IsPreorder Ctx (fun before after => view after = view before) where
  refl _ := rfl
  trans _ _ _ first second := second.trans first

section
variable {α γ : Type} {view : Ctx → γ}

theorem keeps_need (value : Option α) (problem : Status) : Keeps view (Command.need value problem) :=
  (moves_need value problem : Moves (fun before after => view after = view before) _)

theorem keeps_ofExcept (outcome : Except Status α) : Keeps view (Command.ofExcept outcome) :=
  (moves_ofExcept outcome : Moves (fun before after => view after = view before) _)

theorem keeps_check (holds : Prop) [Decidable holds] (problem : Status) : Keeps view (Command.check holds problem) :=
  .ite (.pure ()) (.fail problem)

theorem keeps_checked {holds : Prop} [Decidable holds] {problem : Status} {rest : Command α} (kept : Keeps view rest) :
    Keeps view (Command.check holds problem >>= fun _ => rest) := .bind (keeps_check _ _) fun _ => kept

theorem keeps_sendItems (capacity : Nat) (items : List (Encode Unit)) : Keeps view (sendItems capacity items) :=
  .bind (keeps_need _ _) fun _ => .pure _

theorem keeps_performUv {env : Env} (param : Option (Blob 32)) (check : PinState → Blob 32 → Except Status Unit) :
    Keeps view (performUv env param check) :=
  (moves_performUv param check : Moves (fun before after => view after = view before) _)

theorem keeps_authorize {crypto : Crypto} {env : Env} (permission : UInt32) (param : Option (Blob 32)) (protocol : UInt32)
    (message : Bytes) (short : Nat) : Keeps view (authorize crypto env permission param protocol message short) :=
  (moves_authorize _ _ _ _ _ : Moves (fun before after => view after = view before) _)

end

section
variable {crypto : Crypto} {env : Env}

theorem saveCredentials_beside : Keeps Ctx.besideDisk (saveCredentials crypto env) := by
  unfold saveCredentials
  refine .bind .get fun ctx => ?_
  split
  · exact .fail _
  · exact .fail _
  · dsimp only
    split
    · exact .fail _
    · exact .modify fun _ => rfl

/-- A view that does not look at the file survives a save. -/
theorem keeps_saveCredentials {γ : Type} {view : Ctx → γ} (blind : ∀ ctx disk, view { ctx with disk } = view ctx) :
    Keeps view (saveCredentials crypto env) := by
  intro ctx
  rw [eq_of_besideDisk (saveCredentials_beside ctx), blind]

theorem keeps_trySave {γ : Type} {view : Ctx → γ} (blind : ∀ ctx disk, view { ctx with disk } = view ctx) :
    Keeps view (trySave crypto env) :=
  .withDefault (.bind (keeps_saveCredentials blind) fun _ => .pure true)

/-! Loading writes the table, its count, the PIN, the global counter and the file. -/

section
variable {γ : Type} {view : Ctx → γ} {protect : Nat → UInt8}

theorem keeps_loadEntry (blind : ∀ ctx credentials credentialCount, view { ctx with credentials, credentialCount } =
    view ctx) :
    Keeps (fun loader : Loader => view loader.ctx) (loadEntry protect) := by
  have reads {α : Type} (body : Take α) : Keeps (fun loader : Loader => view loader.ctx) (onRest body) := by
    unfold onRest
    apply Keeps.zoom
    exact fun _ _ => rfl
  refine .bind (reads _) fun flag => .ite (.pure ()) (.bind .get fun loader => ?_)
  dsimp only
  split
  · exact .fail ()
  · exact .bind (reads _) fun cred => .modify fun loader => blind loader.ctx _ _

theorem view_loadEntries (blind : ∀ ctx credentials credentialCount, view { ctx with credentials, credentialCount } =
    view ctx)
    (count : Nat) (bytes : Bytes) (ctx : Ctx) : view (loadEntries protect count bytes ctx) = view ctx := by
  have kept : Keeps (fun loader : Loader => view loader.ctx)
      (Proc.repeatWith (min count maxCredentialsStored) (fun _ => loadEntry protect) ()) :=
        .repeatWith (fun _ => keeps_loadEntry blind) _ ()
  exact (kept _).trans (blind ctx ctx.credentials 0)

/-- A view that looks at none of these survives start-up. -/
theorem keeps_loadCredentials
    (blind : ∀ ctx credentials credentialCount pin globalSignCount disk,
      view { ctx with credentials, credentialCount, pin, globalSignCount, disk } = view ctx) :
    Keeps view (loadCredentials crypto env) := by
  have entries (count : Nat) (bytes : Bytes) (protect : Nat → UInt8) (ctx : Ctx) (pin : PinState) :
      view (loadEntries protect count bytes { ctx with pin }) = view ctx :=
    (view_loadEntries (fun ctx _ _ => blind ctx _ _ ctx.pin ctx.globalSignCount ctx.disk) _ _ _).trans
      (blind ctx ctx.credentials ctx.credentialCount pin ctx.globalSignCount ctx.disk)
  refine .bind .get fun start => ?_
  split
  · exact .pure ()
  refine .ite (.fail _) (.ite (.fail _) (.bind
    (.modify fun ctx => blind ctx ctx.credentials ctx.credentialCount ctx.pin _ ctx.disk) fun _ => ?_))
  refine .bind .get fun ctx => .ite ?_ ?_
  · split
    · unfold loadEncrypted
      refine .ite (.fail _) (.ite (.fail _) ?_)
      dsimp only
      split
      · exact .fail _
      · exact .ite (.fail _) (.modify fun ctx => entries _ _ _ ctx _)
    · exact .fail _
  · refine .bind (.modify fun ctx => blind ctx ctx.credentials ctx.credentialCount _ ctx.globalSignCount ctx.disk) fun _ => ?_
    refine .ite (.fail _) (.bind (.modify fun ctx => entries _ _ _ ctx _) fun _ => .bind .get fun loaded => .ite ?_
      (.pure ()))
    exact .ignore (keeps_saveCredentials fun ctx disk => blind ctx ctx.credentials ctx.credentialCount ctx.pin ctx.globalSignCount disk)

end

theorem saveCredentials_failed (ctx : Ctx) :
    Proc.Ends (saveCredentials crypto env) ctx fun outcome reached => outcome = .ok () ∨ reached = ctx := by
  unfold saveCredentials
  apply Proc.Ends.get
  split
  · exact .inr rfl
  · exact .inr rfl
  · dsimp only
    split
    · exact .inr rfl
    · exact .inl rfl

theorem eq_save (crypto : Crypto) (env : Env) (ctx : Ctx) :
    (saveCredentials crypto env ctx).2 = { ctx with disk := (saveCredentials crypto env ctx).2.disk } :=
  eq_of_besideDisk (saveCredentials_beside ctx)

theorem updatePin_beside (change : PinState → PinState) :
    Keeps Ctx.besidePin (Proc.modify (Ctx.updatePin change) : Command Unit) :=
  .modify fun _ => rfl

theorem deriveClientPinKeys_keeps {γ : Type} {view : Ctx → γ} (params : ClientPinParams) :
    Keeps view (deriveClientPinKeys crypto params) :=
  .bind .get fun _ => keeps_ofExcept _

theorem regenerateKeyAgreement_beside : Keeps Ctx.besidePin (regenerateKeyAgreement env) := by
  unfold regenerateKeyAgreement
  split
  · exact .bind (.modify fun _ => rfl) fun _ => .fail _
  · exact .modify fun _ => rfl

theorem verifyPinHash_beside (aes : Buf 32) (pinHashEnc : Blob 64) :
    Keeps Ctx.besidePin (verifyPinHash crypto env aes pinHashEnc) := by
  refine .bind (keeps_need _ _) fun plain => .bind .get fun ctx => .ite (.pure ()) ?_
  refine .bind (updatePin_beside _) fun _ => .bind (.ignore (keeps_saveCredentials fun _ _ => rfl)) fun _ => ?_
  exact .bind .get fun _ => .fail _

theorem decryptNewPin_keeps {γ : Type} {view : Ctx → γ} (aes : Buf 32) (newPinEnc : Blob 256) :
    Keeps view (decryptNewPin crypto aes newPinEnc) := by
  refine keeps_checked <| .bind (keeps_need _ _) fun raw => .bind .get fun ctx => ?_
  exact keeps_checked (.pure _)

theorem setPin_beside (params : ClientPinParams) : Keeps Ctx.besidePin (setPin crypto env params) := by
  refine .bind .get fun ctx => keeps_checked <| keeps_checked ?_
  refine keeps_checked <| .bind (keeps_need _ _) fun param => ?_
  refine .bind (deriveClientPinKeys_keeps params) fun keys => keeps_checked ?_
  refine .bind (decryptNewPin_keeps _ _) fun pin => .bind (updatePin_beside _) fun _ => ?_
  refine .bind (keeps_trySave fun _ _ => rfl) fun saved => .ite ?_ ?_
  · exact .bind regenerateKeyAgreement_beside fun _ => .pure _
  · exact .bind (updatePin_beside _) fun _ => .fail _

theorem changePin_beside (params : ClientPinParams) : Keeps Ctx.besidePin (changePin crypto env params) := by
  refine .bind .get fun ctx => keeps_checked <| keeps_checked ?_
  refine keeps_checked <| .bind (keeps_need _ _) fun param => keeps_checked ?_
  refine keeps_checked <| .bind (deriveClientPinKeys_keeps params) fun keys => ?_
  refine keeps_checked <| keeps_checked ?_
  refine .bind (verifyPinHash_beside _ _) fun _ => .bind (decryptNewPin_keeps _ _) fun pin => ?_
  refine .bind .get fun before => .bind (updatePin_beside _) fun _ => ?_
  refine .bind (keeps_trySave fun _ _ => rfl) fun saved => .ite ?_ ?_
  · exact .bind regenerateKeyAgreement_beside fun _ => .pure _
  · exact .bind (updatePin_beside _) fun _ => .fail _

theorem issueToken_beside (permissions : UInt32) (rpId : Blob 255) :
    Keeps Ctx.besidePin (issueToken env permissions rpId) := by
  unfold issueToken
  split
  · exact .bind (updatePin_beside _) fun _ => .fail _
  · exact .bind (updatePin_beside _) fun _ => .pure _

theorem verifyPinForToken_beside (params : ClientPinParams) :
    Keeps Ctx.besidePin (verifyPinForToken crypto env params) := by
  refine .bind (deriveClientPinKeys_keeps params) fun keys => keeps_checked ?_
  exact .bind (verifyPinHash_beside _ _) fun _ => .pure keys

theorem getPinToken_beside (params : ClientPinParams) (capacity : Nat) :
    Keeps Ctx.besidePin (getPinToken crypto env params capacity) := by
  refine .bind .get fun ctx => keeps_checked <| keeps_checked ?_
  refine keeps_checked <| keeps_checked ?_
  refine .bind (verifyPinForToken_beside params) fun keys => .bind (updatePin_beside _) fun _ => ?_
  refine .bind (issueToken_beside _ _) fun token => .bind (keeps_need _ _) fun sealed => ?_
  exact .bind (keeps_need _ _) fun bytes => .bind regenerateKeyAgreement_beside fun _ => .pure _

theorem sendToken_beside (keys : PinKeys) (permissions : UInt32) (rpId : Blob 255) (capacity : Nat) :
    Keeps Ctx.besidePin (sendToken crypto env keys permissions rpId capacity) := by
  refine .bind (issueToken_beside _ _) fun token => .bind (keeps_need _ _) fun sealed => ?_
  exact .bind regenerateKeyAgreement_beside fun _ => .bind (keeps_need _ _) fun bytes => .pure _

theorem getPinTokenPerm_beside (params : ClientPinParams) (capacity : Nat) :
    Keeps Ctx.besidePin (getPinTokenPerm crypto env params capacity) := by
  refine .bind .get fun ctx => keeps_checked <| keeps_checked ?_
  refine keeps_checked <| .bind (keeps_need _ _) fun permissions => keeps_checked ?_
  refine keeps_checked <| .bind (verifyPinForToken_beside params) fun keys => ?_
  exact .bind (updatePin_beside _) fun _ => sendToken_beside _ _ _ _

theorem getUvTokenPerm_beside (params : ClientPinParams) (capacity : Nat) :
    Keeps Ctx.besidePin (getUvTokenPerm crypto env params capacity) := by
  refine .bind .get fun ctx => keeps_checked <| .bind (keeps_need _ _) fun permissions => ?_
  refine keeps_checked <| keeps_checked ?_
  exact .bind (deriveClientPinKeys_keeps params) fun keys => sendToken_beside _ _ _ _

theorem keeps_clientPin {γ : Type} {view : Ctx → γ} (beside : ∀ ctx, view ctx.besidePin = view ctx)
    (blind : ∀ ctx minPinLength, view { ctx with minPinLength } = view ctx) (request : Bytes) (capacity : Nat) :
    Keeps view (clientPin crypto env request capacity) := by
  refine .bind (keeps_ofExcept _) fun params => keeps_checked <| .bind .get fun ctx => ?_
  split
  · exact keeps_sendItems _ _
  · exact keeps_sendItems _ _
  · exact (setPin_beside _).through beside
  · exact (changePin_beside _).through beside
  · exact (getPinToken_beside _ _).through beside
  · exact (getUvTokenPerm_beside _ _).through beside
  · exact keeps_sendItems _ _
  · refine .bind .get fun ctx => keeps_checked <| .bind (keeps_need _ _) fun length => ?_
    refine keeps_checked <| .bind (keeps_need _ _) fun param => keeps_checked ?_
    exact keeps_checked <| keeps_checked <| .bind (.modify fun ctx => blind ctx _)
      fun _ => .pure _
  · exact (getPinTokenPerm_beside _ _).through beside
  · exact .fail _

theorem dropEnrollment_beside (ctx : Ctx) : ctx.dropEnrollment.besideBio = ctx.besideBio := by
  unfold Ctx.dropEnrollment
  split
  · rfl
  · dsimp only
    split
    · rfl
    · rfl

theorem bioEnrollCommand_beside (params : BioEnrollParams) (capacity : Nat) :
    Keeps Ctx.besideBio (bioEnrollCommand env params capacity) := by
  unfold bioEnrollCommand
  split
  · refine .bind (.modify dropEnrollment_beside) fun _ => .bind .get fun ctx => .bind (keeps_need _ _) fun slot => ?_
    split
    · exact .bind (.modify fun _ => rfl) fun _ => .fail _
    · exact .bind (.modify fun _ => rfl) fun _ => keeps_sendItems _ _
  · refine .bind .get fun ctx => .bind (keeps_need _ _) fun slot => keeps_checked ?_
    refine .bind (keeps_need _ _) fun id => keeps_checked ?_
    exact .bind (.modify fun _ => rfl) fun _ => keeps_sendItems _ _
  · exact .bind (.modify dropEnrollment_beside) fun _ => .pure _
  · exact .bind .get fun _ => keeps_sendItems _ _
  · refine .bind (keeps_need _ _) fun id => .bind (keeps_need _ _) fun name => .bind .get fun ctx => ?_
    exact .bind (keeps_need _ _) fun slot => .bind (.modify fun _ => rfl) fun _ => .pure _
  · refine .bind (keeps_need _ _) fun id => .bind .get fun ctx => .bind (keeps_need _ _) fun slot => ?_
    exact .bind (.modify fun _ => rfl) fun _ => .pure _
  · exact keeps_sendItems _ _
  · exact .fail _

theorem bioEnrollment_beside (request : Bytes) (capacity : Nat) :
    Keeps Ctx.besideBio (bioEnrollment crypto env request capacity) := by
  refine .bind (keeps_ofExcept _) fun params => keeps_checked ?_
  split
  · exact keeps_sendItems _ _
  · refine .ite ?_ (.bind (.pure ()) fun _ => bioEnrollCommand_beside params capacity)
    exact .bind (keeps_authorize _ _ _ _ _) fun _ => bioEnrollCommand_beside params capacity

theorem enumerateRpsBegin_beside (capacity : Nat) : Keeps Ctx.besideEnum (enumerateRpsBegin capacity) := by
  refine .bind .get fun ctx => .bind (.modify fun _ => rfl) fun _ => ?_
  split
  · exact .fail _
  · exact .bind (.modify fun _ => rfl) fun _ => keeps_sendItems _ _

theorem enumerateRpsNext_beside (capacity : Nat) : Keeps Ctx.besideEnum (enumerateRpsNext capacity) := by
  refine .bind .get fun ctx => .bind (keeps_need _ _) fun rp => ?_
  exact .bind (.modify fun _ => rfl) fun _ => keeps_sendItems _ _

theorem enumerateCredsBegin_beside (params : CredMgmtParams) (capacity : Nat) :
    Keeps Ctx.besideEnum (enumerateCredsBegin params capacity) := by
  refine .bind (keeps_need _ _) fun rpIdHash => .bind .get fun ctx => .bind (.modify fun _ => rfl) fun _ => ?_
  split
  · exact .fail _
  · exact .bind (.modify fun _ => rfl) fun _ => keeps_sendItems _ _

theorem enumerateCredsNext_beside (capacity : Nat) : Keeps Ctx.besideEnum (enumerateCredsNext capacity) := by
  refine .bind .get fun ctx => .bind (keeps_need _ _) fun slot => ?_
  exact .bind (.modify fun _ => rfl) fun _ => keeps_sendItems _ _

end

end Hiya.Fido2
