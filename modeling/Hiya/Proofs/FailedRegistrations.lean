import Hiya.Proofs.PinRetries
import Hiya.Proofs.TableSteps

/-! What a registration that fails leaves in the table. The slot is written before the save
and before the response, and neither of their failures puts the older credential back. -/

namespace Hiya.Fido2
open Library Cbor

/-- The credentials that the table holds. -/
def Ctx.held (ctx : Ctx) (slot : CredSlot) : Option Credential :=
  if (ctx.credentials slot).inUse then some (ctx.credentials slot) else none

/-- The registration comes to store a credential and fails behind that point: the save
fails over an older credential, or it works and the response has no room. -/
def Tears (crypto : Crypto) (request : Request) (ctx : Ctx) : Prop :=
  ∃ cred slot, residentOf crypto request ctx = some cred ∧ ctx.slotFor cred.rp.idHash cred.user.id = some slot ∧
    (((saveCredentials crypto request.env (ctx.storing slot cred)).1 ≠ .ok () ∧ (ctx.credentials slot).inUse = true) ∨
      ((saveCredentials crypto request.env (ctx.storing slot cred)).1 = .ok () ∧ residentAnswer crypto request ctx = none ∧
        ctx.credentials slot ≠ cred))

section
variable {crypto : Crypto} {request : Request} {ctx reached : Ctx}

theorem held_of_update {slot : CredSlot} {cred : Credential}
    (credentials : reached.credentials = Function.update ctx.credentials slot cred) :
    reached.held = Function.update ctx.held slot (if cred.inUse then some cred else none) := by
  funext place
  unfold Ctx.held
  rw [credentials]
  by_cases here : place = slot
  · rw [here, Function.update_self, Function.update_self]
  · rw [Function.update_of_ne here, Function.update_of_ne here]

/-- A table written in one place is the old one exactly when that place holds what it held. -/
theorem held_eq_iff {slot : CredSlot} {cred : Credential}
    (credentials : reached.credentials = Function.update ctx.credentials slot cred) :
    reached.held = ctx.held ↔ (if cred.inUse then some cred else none) = ctx.held slot := by
  rw [held_of_update credentials]
  constructor
  · intro same
    rw [← congrFun same slot, Function.update_self]
  · intro same
    rw [same, Function.update_eq_self]

theorem held_stored {slot : CredSlot} {cred : Credential} (inUse : cred.inUse = true)
    (credentials : reached.credentials = Function.update ctx.credentials slot cred) :
    reached.held = ctx.held ↔ ctx.credentials slot = cred := by
  rw [held_eq_iff credentials, if_pos inUse]
  unfold Ctx.held
  constructor
  · intro same
    split at same
    · exact (Option.some.inj same).symm
    · cases same
  · intro same
    rw [same, if_pos inUse]

theorem held_freed {slot : CredSlot} {cred : Credential}
    (credentials : reached.credentials = Function.update ctx.credentials slot { cred with inUse := false }) :
    reached.held = ctx.held ↔ (ctx.credentials slot).inUse = false := by
  rw [held_eq_iff credentials]
  unfold Ctx.held
  cases (ctx.credentials slot).inUse with
  | true => simp
  | false => simp

/-- A failed registration keeps the table unless it fails behind the write. -/
theorem Registers.keeps_iff {outcome : Except Status Reply} (ended : Registers crypto request ctx outcome reached) :
    (succeeds outcome = false → reached.held = ctx.held) ↔ ¬ Tears crypto request ctx := by
  have known {cred other : Credential} {slot place : CredSlot} (resident : residentOf crypto request ctx = some cred)
      (found : ctx.slotFor cred.rp.idHash cred.user.id = some slot) (again : residentOf crypto request ctx = some other)
      (there : ctx.slotFor other.rp.idHash other.user.id = some place) : cred = other ∧ slot = place := by
    cases resident.symm.trans again
    exact ⟨rfl, Option.some.inj (found.symm.trans there)⟩
  cases ended with
  | elsewhere unstored credentials =>
    refine iff_of_true (fun _ => by unfold Ctx.held; rw [credentials]) ?_
    rintro ⟨cred, slot, resident, found, -⟩
    cases (unstored cred resident).symm.trans found
  | @stores _ _ cred slot resident found saved answers credentials =>
    rw [held_stored (residentOf_inUse resident) credentials]
    constructor
    · rintro keeps ⟨other, place, again, there, ⟨failed, -⟩ | ⟨-, unanswered, differs⟩⟩
      · obtain ⟨rfl, rfl⟩ := known resident found again there
        exact failed saved
      · obtain ⟨rfl, rfl⟩ := known resident found again there
        apply differs
        apply keeps
        rw [unanswered] at answers
        cases outcome with
        | error problem => rfl
        | ok reply => cases answers
    · intro whole failed
      by_contra differs
      refine whole ⟨cred, slot, resident, found, .inr ⟨saved, ?_, differs⟩⟩
      cases outcome with
      | ok reply => cases failed
      | error problem => exact Option.isSome_eq_false_iff.mp answers.symm |> Option.isNone_iff_eq_none.mp
  | @frees problem _ cred slot resident found failed credentials =>
    rw [held_freed credentials]
    constructor
    · rintro keeps ⟨other, place, again, there, ⟨-, inUse⟩ | ⟨saved, -, -⟩⟩
      · obtain ⟨rfl, rfl⟩ := known resident found again there
        rw [keeps rfl] at inUse
        cases inUse
      · obtain ⟨rfl, rfl⟩ := known resident found again there
        exact failed saved
    · intro whole _
      apply Bool.eq_false_iff.mpr
      intro inUse
      exact whole ⟨cred, slot, resident, found, .inl ⟨failed, inUse⟩⟩

theorem process_registers (command : request.command = .makeCredential) :
    Proc.Ends (process crypto request) ctx (Registers crypto request ctx) := by
  apply ends_process (by rw [command]; decide)
  unfold dispatch
  rw [show Cmd.ofByte request.cmd = .makeCredential from command]
  exact makeCredential_registers command

end

/-- Over every run, a MakeCredential that fails leaves the credentials of the table as they
were exactly when it does not fail behind the write of a slot. -/
theorem failed_registration_keeps_table_iff (crypto : Crypto) (start : Ctx) (requests : List Request) :
    Throughout ((authenticator crypto).run start requests) fun _ event => event.input.command = .makeCredential →
      ((succeeds event.outcome = false → event.after.held = event.before.held) ↔
      ¬ Tears crypto event.input event.before) := by
  refine Machine.run_steps (fun ctx request command => ?_) start requests
  exact (process_registers command).keeps_iff

/-- A resident credential, and a second one of the same user that cannot be saved. -/
def tornRun : List Request :=
  [residentRequest 1 1, { residentRequest 2 1 with env := { plainEnv 2 with saveNonce := none } }]

theorem failed_save_loses_credential :
    ¬ ∀ (crypto : Crypto) (key : Buf 32) (start : Ctx) (requests : List Request), Booted crypto key start →
      Throughout ((authenticator crypto).run start requests) fun _ event => event.input.command = .makeCredential →
        succeeds event.outcome = false → event.after.held = event.before.held := by
  intro claimed
  have all := claimed tagCipher (.zero 32) (plainCtx false) tornRun (.first (plainEnv 0) plainKeypair false)
  have lost : ((authenticator tagCipher).run (plainCtx false) tornRun).any (fun event =>
      event.input.command = .makeCredential && !succeeds event.outcome && (event.before.held firstSlot).isSome &&
        (event.after.held firstSlot).isNone) = true := by decide +kernel
  obtain ⟨event, inside, shape⟩ := List.any_eq_true.mp lost
  simp only [Bool.and_eq_true, decide_eq_true_eq, Bool.not_eq_true'] at shape
  obtain ⟨⟨⟨makes, failed⟩, before⟩, after⟩ := shape
  rw [all.of_mem inside makes failed, Option.isNone_iff_eq_none] at after
  rw [after] at before
  cases before

end Hiya.Fido2
