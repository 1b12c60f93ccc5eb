import Hiya.Proofs.Frames
import Hiya.Proofs.Ledger

/-! The commands that leave the ledger alone and return plain data: everything but
making, using, deleting and wiping credentials. -/

namespace Hiya.Fido2
open Library Cbor

structure Quiet (body : Command Reply) : Prop where
  keeps : Proc.Keeps Ctx.ledger body
  replies : Proc.Ensures body fun reply => ∃ bytes, reply = .data bytes

abbrev Still {α : Type} (body : Command α) : Prop := Proc.Keeps Ctx.ledger body

namespace Quiet
variable {α : Type}

theorem data (bytes : Bytes) : Quiet (pure (.data bytes)) where
  keeps := .pure _
  replies := .pure ⟨bytes, rfl⟩

theorem fail (problem : Status) : Quiet (Proc.fail problem) where
  keeps := .fail problem
  replies := .fail

theorem bind {first : Command α} {next : α → Command Reply} (head : Still first) (tail : ∀ value, Quiet (next value)) :
    Quiet (first >>= next) where
  keeps := .bind head fun value => (tail value).keeps
  replies := .after fun value => (tail value).replies

theorem get {next : Ctx → Command Reply} (tail : ∀ ctx, Quiet (next ctx)) : Quiet (Proc.get >>= next) :=
  bind .get tail

theorem check {holds : Prop} [Decidable holds] {problem : Status} {next : Unit → Command Reply}
    (tail : holds → Quiet (next ())) : Quiet (Command.check holds problem >>= next) := by
  unfold Command.check
  split
  next yes => exact bind (.pure ()) fun _ => tail yes
  next no => exact fail problem

theorem need {value : Option α} {problem : Status} {next : α → Command Reply} (tail : ∀ value, Quiet (next value)) :
    Quiet (Command.need value problem >>= next) :=
  bind (keeps_need value problem) tail

theorem modify {change : Ctx → Ctx} {next : Unit → Command Reply} (same : ∀ ctx, (change ctx).ledger = ctx.ledger)
    (tail : Quiet (next ())) : Quiet (Proc.modify change >>= next) :=
  bind (.modify same) fun _ => tail

theorem ite {condition : Prop} [Decidable condition] {first second : Command Reply} (yes : Quiet first)
    (no : Quiet second) : Quiet (if condition then first else second) := by
  split
  · exact yes
  · exact no

end Quiet

section
variable {crypto : Crypto} {env : Env}

theorem still_saveCredentials : Proc.Keeps Ctx.ledger (saveCredentials crypto env) := keeps_saveCredentials fun _ _ => rfl

theorem still_trySave : Still (trySave crypto env) := keeps_trySave fun _ _ => rfl

/-- The ledger does not look at what clientPIN works on. -/
theorem still_of_besidePin {α : Type} {body : Command α} (keeps : Proc.Keeps Ctx.besidePin body) : Still body := by
  intro ctx
  exact (congrArg Ctx.ledger (keeps ctx) : (body ctx).2.besidePin.ledger = ctx.besidePin.ledger)

theorem quiet_sendItems (capacity : Nat) (items : List (Encode Unit)) : Quiet (sendItems capacity items) :=
  .need fun bytes => .data bytes

theorem quiet_getInfo (capacity : Nat) : Quiet (getInfo capacity) := .get fun _ => quiet_sendItems _ _

theorem quiet_selection : Quiet (selection env) := .get fun _ => .check fun _ => .data []

theorem quiet_setPin (params : ClientPinParams) : Quiet (setPin crypto env params) := by
  refine .get fun ctx => .check fun _ => .check fun _ => .check fun _ => .need fun param => ?_
  refine .bind (deriveClientPinKeys_keeps params) fun keys => .check fun _ => ?_
  refine .bind (decryptNewPin_keeps _ _) fun pin => .bind (still_of_besidePin (updatePin_beside _)) fun _ => ?_
  refine .bind still_trySave fun saved => .ite ?_ ?_
  · exact .bind (still_of_besidePin regenerateKeyAgreement_beside) fun _ => .data []
  · exact .bind (still_of_besidePin (updatePin_beside _)) fun _ => .fail _

theorem quiet_changePin (params : ClientPinParams) : Quiet (changePin crypto env params) := by
  refine .get fun ctx => .check fun _ => .check fun _ => .check fun _ => .need fun param => .check fun _ => .check fun _ => ?_
  refine .bind (deriveClientPinKeys_keeps params) fun keys => .check fun _ => .check fun _ => ?_
  refine .bind (still_of_besidePin (verifyPinHash_beside _ _)) fun _ => .bind (decryptNewPin_keeps _ _)
    fun pin => .get fun before => ?_
  refine .bind (still_of_besidePin (updatePin_beside _)) fun _ => .bind still_trySave fun saved => .ite ?_ ?_
  · exact .bind (still_of_besidePin regenerateKeyAgreement_beside) fun _ => .data []
  · exact .bind (still_of_besidePin (updatePin_beside _)) fun _ => .fail _

theorem quiet_getPinToken (params : ClientPinParams) (capacity : Nat) :
    Quiet (getPinToken crypto env params capacity) := by
  refine .get fun ctx => .check fun _ => .check fun _ => .check fun _ => .check fun _ => ?_
  refine .bind (still_of_besidePin (verifyPinForToken_beside params)) fun keys => .bind
    (still_of_besidePin (updatePin_beside _)) fun _ => ?_
  refine .bind (still_of_besidePin (issueToken_beside _ _)) fun token => .need fun sealed => .need fun bytes => ?_
  exact .bind (still_of_besidePin regenerateKeyAgreement_beside) fun _ => .data bytes

theorem quiet_sendToken (keys : PinKeys) (permissions : UInt32) (rpId : Blob 255) (capacity : Nat) :
    Quiet (sendToken crypto env keys permissions rpId capacity) := by
  refine .bind (still_of_besidePin (issueToken_beside _ _)) fun token => .need fun sealed => ?_
  exact .bind (still_of_besidePin regenerateKeyAgreement_beside) fun _ => .need fun bytes => .data bytes

theorem quiet_getPinTokenPerm (params : ClientPinParams) (capacity : Nat) :
    Quiet (getPinTokenPerm crypto env params capacity) := by
  refine .get fun ctx => .check fun _ => .check fun _ => .check fun _ => .need fun permissions => ?_
  refine .check fun _ => .check fun _ => .bind (still_of_besidePin (verifyPinForToken_beside params)) fun keys => ?_
  exact .bind (still_of_besidePin (updatePin_beside _)) fun _ => quiet_sendToken _ _ _ _

theorem quiet_getUvTokenPerm (params : ClientPinParams) (capacity : Nat) :
    Quiet (getUvTokenPerm crypto env params capacity) := by
  refine .get fun ctx => .check fun _ => .need fun permissions => .check fun _ => .check fun _ => ?_
  exact .bind (deriveClientPinKeys_keeps params) fun keys => quiet_sendToken _ _ _ _

theorem quiet_setMinPinLength (params : ClientPinParams) : Quiet (setMinPinLength crypto params) := by
  refine .get fun ctx => .check fun _ => .need fun length => .check fun _ => .need fun param => ?_
  exact .check fun _ => .check fun _ => .check fun _ => .modify (fun _ => rfl) (.data [])

theorem quiet_clientPin (request : Bytes) (capacity : Nat) : Quiet (clientPin crypto env request capacity) := by
  refine .bind (keeps_ofExcept _) fun params => .check fun _ => .get fun ctx => ?_
  split
  · exact quiet_sendItems _ _
  · exact quiet_sendItems _ _
  · exact quiet_setPin params
  · exact quiet_changePin params
  · exact quiet_getPinToken params capacity
  · exact quiet_getUvTokenPerm params capacity
  · exact quiet_sendItems _ _
  · exact quiet_setMinPinLength params
  · exact quiet_getPinTokenPerm params capacity
  · exact .fail _

theorem ledger_dropEnrollment (ctx : Ctx) : ctx.dropEnrollment.ledger = ctx.ledger :=
  (congrArg Ctx.ledger (dropEnrollment_beside ctx) : ctx.dropEnrollment.besideBio.ledger = ctx.besideBio.ledger)

theorem quiet_enrollBegin (params : BioEnrollParams) (capacity : Nat) : Quiet (enrollBegin env params capacity) := by
  refine .modify ledger_dropEnrollment <| .get fun ctx => .need fun slot => ?_
  split
  · exact .modify (fun _ => rfl) (.fail _)
  · exact .modify (fun _ => rfl) (quiet_sendItems _ _)

theorem quiet_enrollCaptureNext (params : BioEnrollParams) (capacity : Nat) :
    Quiet (enrollCaptureNext params capacity) := by
  refine .get fun ctx => .need fun slot => .check fun _ => .need fun id => .check fun _ => ?_
  exact .modify (fun _ => rfl) (quiet_sendItems _ _)

theorem quiet_setFriendlyName (params : BioEnrollParams) : Quiet (setFriendlyName params) :=
  .need fun _ => .need fun _ => .get fun _ => .need fun _ => .modify (fun _ => rfl) (.data [])

theorem quiet_removeEnrollment (params : BioEnrollParams) : Quiet (removeEnrollment params) :=
  .need fun _ => .get fun _ => .need fun _ => .modify (fun _ => rfl) (.data [])

theorem quiet_bioEnrollCommand (params : BioEnrollParams) (capacity : Nat) :
    Quiet (bioEnrollCommand env params capacity) := by
  unfold bioEnrollCommand
  split
  · exact quiet_enrollBegin params capacity
  · exact quiet_enrollCaptureNext params capacity
  · exact .modify ledger_dropEnrollment (.data [])
  · exact .get fun _ => quiet_sendItems _ _
  · exact quiet_setFriendlyName params
  · exact quiet_removeEnrollment params
  · exact quiet_sendItems _ _
  · exact .fail _

theorem quiet_bioEnrollment (request : Bytes) (capacity : Nat) :
    Quiet (bioEnrollment crypto env request capacity) := by
  refine .bind (keeps_ofExcept _) fun params => .check fun _ => ?_
  split
  · exact quiet_sendItems _ _
  · refine .ite ?_ (.bind (.pure ()) fun _ => quiet_bioEnrollCommand params capacity)
    exact .bind (keeps_authorize _ _ _ _ _) fun _ => quiet_bioEnrollCommand params capacity

theorem quiet_enumerateRpsBegin (capacity : Nat) : Quiet (enumerateRpsBegin capacity) := by
  refine .get fun ctx => .modify (fun _ => rfl) ?_
  split
  · exact .fail _
  · exact .modify (fun _ => rfl) (quiet_sendItems _ _)

theorem quiet_enumerateRpsNext (capacity : Nat) : Quiet (enumerateRpsNext capacity) :=
  .get fun _ => .need fun _ => .modify (fun _ => rfl) (quiet_sendItems _ _)

theorem quiet_enumerateCredsBegin (params : CredMgmtParams) (capacity : Nat) :
    Quiet (enumerateCredsBegin params capacity) := by
  refine .need fun rpIdHash => .get fun ctx => .modify (fun _ => rfl) ?_
  split
  · exact .fail _
  · exact .modify (fun _ => rfl) (quiet_sendItems _ _)

theorem quiet_enumerateCredsNext (capacity : Nat) : Quiet (enumerateCredsNext capacity) :=
  .get fun _ => .need fun _ => .modify (fun _ => rfl) (quiet_sendItems _ _)

end

end Hiya.Fido2
