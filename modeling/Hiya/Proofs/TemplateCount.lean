import Hiya.Library.Table
import Hiya.Proofs.TableSteps

/-! The fingerprint templates of authenticatorBioEnrollment. The count beside the slots and
the slot that is being enrolled are kept by hand; they agree with the slots after every
command. -/

namespace Hiya.Fido2
open Library Cbor
open Proc (Ends Keeps)

def Ctx.templatesTaken (ctx : Ctx) (slot : TemplateSlot) : Bool := (ctx.bioTemplates slot).inUse

/-- The count is that of the slots in use, and an enrolment that goes on is in one of them
and waits for samples. -/
structure TemplatesCounted (ctx : Ctx) : Prop where
  count : ctx.bioTemplateCount = (taken ctx.templatesTaken).card
  active : ∀ slot, ctx.bioEnrollActive = some slot →
    (ctx.bioTemplates slot).inUse = true ∧ (ctx.bioTemplates slot).samplesRemaining > 0

def Ctx.templates (ctx : Ctx) : (TemplateSlot → BioTemplate) × Nat × Option TemplateSlot :=
  (ctx.bioTemplates, ctx.bioTemplateCount, ctx.bioEnrollActive)

theorem TemplatesCounted.congr {ctx reached : Ctx} (counted : TemplatesCounted ctx)
    (same : reached.templates = ctx.templates) :
    TemplatesCounted reached := by
  obtain ⟨slots, count, active⟩ : reached.bioTemplates = ctx.bioTemplates ∧ reached.bioTemplateCount = ctx.bioTemplateCount ∧
      reached.bioEnrollActive = ctx.bioEnrollActive := by simpa only [Ctx.templates, Prod.mk.injEq] using same
  have taken? : reached.templatesTaken = ctx.templatesTaken := by
    unfold Ctx.templatesTaken
    rw [slots]
  refine ⟨?_, ?_⟩
  · rw [count, taken?]
    exact counted.count
  · rw [slots, active]
    exact counted.active

private theorem templatesTaken_put (slot : TemplateSlot) (template : BioTemplate) (ctx : Ctx) :
    (ctx.putTemplate slot template).templatesTaken = Function.update ctx.templatesTaken slot template.inUse := by
  funext other
  change (Function.update ctx.bioTemplates slot template other).inUse = _
  by_cases here : other = slot
  · subst here
    rw [Function.update_self, Function.update_self]
  · rw [Function.update_of_ne here, Function.update_of_ne here]
    rfl

section
variable {crypto : Crypto} {env : Env} {ctx : Ctx}

/-- A slot is given up, and with it an enrolment in it. -/
theorem TemplatesCounted.free (counted : TemplatesCounted ctx) {slot : TemplateSlot} {template : BioTemplate}
    (inUse : (ctx.bioTemplates slot).inUse = true) (unused : template.inUse = false) {active : Option TemplateSlot}
    (left : ∀ other, active = some other → ctx.bioEnrollActive = some other ∧ other ≠ slot) :
    TemplatesCounted { ctx.putTemplate slot template with bioTemplateCount := ctx.bioTemplateCount - 1, bioEnrollActive := active } where
  count := by
    have fewer := card_taken_free (show ctx.templatesTaken slot = true from inUse)
    have before := counted.count
    change ctx.bioTemplateCount - 1 = (taken (ctx.putTemplate slot template).templatesTaken).card
    rw [templatesTaken_put, unused]
    omega
  active other same := by
    obtain ⟨before, elsewhere⟩ := left other same
    change (Function.update ctx.bioTemplates slot template other).inUse = true ∧ _
    change _ ∧ (Function.update ctx.bioTemplates slot template other).samplesRemaining > 0
    rw [Function.update_of_ne elsewhere]
    exact counted.active other before

/-- An enrolment that waits for samples is dropped, and there is no other. -/
theorem dropEnrollment_counted (counted : TemplatesCounted ctx) :
    TemplatesCounted ctx.dropEnrollment ∧ ctx.dropEnrollment.bioEnrollActive = none := by
  unfold Ctx.dropEnrollment
  cases active : ctx.bioEnrollActive with
  | none => exact ⟨counted, active⟩
  | some slot =>
    obtain ⟨inUse, waits⟩ := counted.active slot active
    dsimp only
    rw [if_pos ⟨inUse, waits⟩]
    exact ⟨counted.free inUse rfl (fun other same => nomatch same), rfl⟩

/-- A slot keeps its use; what it waits for may change unless it is being enrolled. -/
theorem TemplatesCounted.edit (counted : TemplatesCounted ctx) (slot : TemplateSlot) (template : BioTemplate)
    (active : Option TemplateSlot) (same : template.inUse = (ctx.bioTemplates slot).inUse)
    (left : ∀ other, active = some other → ctx.bioEnrollActive = some other)
    (waits : active = some slot → template.samplesRemaining > 0) :
    TemplatesCounted { ctx.putTemplate slot template with bioEnrollActive := active } where
  count := by
    change ctx.bioTemplateCount = (taken (ctx.putTemplate slot template).templatesTaken).card
    rw [templatesTaken_put, same]
    exact counted.count.trans (congrArg (fun table => (taken table).card)
      (Function.update_eq_self slot ctx.templatesTaken).symm)
  active other chosen := by
    obtain ⟨inUse, before⟩ := counted.active other (left other chosen)
    change (Function.update ctx.bioTemplates slot template other).inUse = true ∧
      (Function.update ctx.bioTemplates slot template other).samplesRemaining > 0
    by_cases here : other = slot
    · subst here
      rw [Function.update_self]
      exact ⟨same.trans inUse, waits chosen⟩
    · rw [Function.update_of_ne here]
      exact ⟨inUse, before⟩

private theorem ends_sent {post : Ctx → Prop} {capacity : Nat} {items : List (Encode Unit)} (holds : post ctx) :
    Ends (sendItems capacity items) ctx fun _ reached => post reached := ends_sendItems (fun _ => holds) fun _ _ => holds

private theorem enrollBegin_counted (counted : TemplatesCounted ctx) (params : BioEnrollParams) (capacity : Nat) :
    Ends (enrollBegin env params capacity) ctx fun _ reached => TemplatesCounted reached := by
  obtain ⟨dropped, idle⟩ := dropEnrollment_counted counted
  apply Ends.andThen
  apply Ends.get
  generalize ctx.dropEnrollment = start at dropped idle
  refine ends_need dropped fun slot found => ?_
  have unused : (start.bioTemplates slot).inUse = false := by simpa using List.find?_some found
  cases drawn : env.templateId with
  | none =>
    apply Ends.andThen
    refine dropped.edit slot { BioTemplate.zero with templateId := .ofSlice _ (List.replicate 16 0) }
      start.bioEnrollActive unused.symm
      (fun _ same => same) fun same => ?_
    cases idle.symm.trans same
  | some id =>
    apply Ends.andThen
    apply ends_sent
    refine ⟨?_, ?_⟩
    · have more := card_taken_take start.templatesTaken slot
      have before := dropped.count
      rw [show start.templatesTaken slot = false from unused] at more
      change start.bioTemplateCount + 1 = (taken (start.putTemplate slot _).templatesTaken).card
      rw [templatesTaken_put, more, before]
      rfl
    · intro other same
      cases same
      change (Function.update start.bioTemplates slot _ slot).inUse = true ∧
        (Function.update start.bioTemplates slot _ slot).samplesRemaining > 0
      rw [Function.update_self]
      exact ⟨rfl, show (4 : UInt32) > 0 by decide⟩

private theorem enrollCaptureNext_counted (counted : TemplatesCounted ctx) (params : BioEnrollParams) (capacity : Nat) :
    Ends (enrollCaptureNext params capacity) ctx fun _ reached => TemplatesCounted reached := by
  apply Ends.get
  refine ends_need counted fun slot active => ends_check counted fun inUse => ends_need counted fun id _ => ends_check counted fun _ => ?_
  apply Ends.andThen
  apply ends_sent
  generalize (if (ctx.bioTemplates slot).samplesRemaining > 0 then (ctx.bioTemplates slot).samplesRemaining - 1
    else 0) = remaining
  refine counted.edit slot { ctx.bioTemplates slot with samplesRemaining := remaining } _ rfl (fun other same => ?_)
    fun same => ?_
  · split at same
    · cases same
    · exact same
  · split at same
    · cases same
    next more => exact UInt32.pos_iff_ne_zero.mpr more

private theorem setFriendlyName_counted (counted : TemplatesCounted ctx) (params : BioEnrollParams) :
    Ends (setFriendlyName params) ctx fun _ reached => TemplatesCounted reached := by
  refine ends_need counted fun id _ => ends_need counted fun name _ => ?_
  apply Ends.get
  refine ends_need counted fun slot _ => ?_
  apply Ends.andThen
  refine counted.edit slot { ctx.bioTemplates slot with friendlyName := name } ctx.bioEnrollActive rfl
    (fun _ same => same) fun active => ?_
  exact (counted.active slot active).2

private theorem removeEnrollment_counted (counted : TemplatesCounted ctx) (params : BioEnrollParams) :
    Ends (removeEnrollment params) ctx fun _ reached => TemplatesCounted reached := by
  refine ends_need counted fun id _ => ?_
  apply Ends.get
  refine ends_need counted fun slot found => ?_
  have held := List.find?_some found
  have inUse : (ctx.bioTemplates slot).inUse = true := (Bool.and_eq_true_iff.mp held).1
  apply Ends.andThen
  refine counted.free inUse rfl fun other same => ?_
  split at same
  · cases same
  next elsewhere =>
    refine ⟨same, ?_⟩
    rintro rfl
    exact elsewhere same

private theorem bioEnrollCommand_counted (counted : TemplatesCounted ctx) (params : BioEnrollParams) (capacity : Nat) :
    Ends (bioEnrollCommand env params capacity) ctx fun _ reached => TemplatesCounted reached := by
  unfold bioEnrollCommand
  split
  · exact enrollBegin_counted counted params capacity
  · exact enrollCaptureNext_counted counted params capacity
  · exact (dropEnrollment_counted counted).1
  · exact ends_sent counted
  · exact setFriendlyName_counted counted params
  · exact removeEnrollment_counted counted params
  · exact ends_sent counted
  · exact counted

private theorem bioEnrollment_counted (counted : TemplatesCounted ctx) (request : Bytes) (capacity : Nat) :
    Ends (bioEnrollment crypto env request capacity) ctx fun _ reached => TemplatesCounted reached := by
  refine ends_ofExcept (fun _ => counted) fun params _ => ends_check counted fun _ => ?_
  apply Ends.ite
  · exact fun _ => ends_sent counted
  intro _
  apply Ends.ite
  · intro _
    have checks : Keeps Ctx.templates (authorize crypto env permBioEnrollment params.pinUvAuthParam params.pinProtocol
      [params.modality.toUInt8, params.subCommand.toUInt8] 0) := keeps_authorize _ _ _ _ _
    refine checks.ends (fun _ reached same => counted.congr same) fun _ reached same => ?_
    exact bioEnrollCommand_counted (counted.congr same) params capacity
  · exact fun _ => bioEnrollCommand_counted counted params capacity

private theorem templates_save : Keeps Ctx.templates (saveCredentials crypto env) := keeps_saveCredentials fun _ _ => rfl

private theorem templates_putCounter (holder : Option CredSlot) (count : UInt32) (ctx : Ctx) :
    (ctx.putCounter holder count).templates = ctx.templates := by
  cases holder with
  | none => rfl
  | some slot => rfl

private theorem templates_answer (holder : Option CredSlot) (privkey : Buf 32) (id : CredentialId)
    (rpIdHash clientDataHash : Buf 32)
    (flags : UInt8) (total : Nat) (includeUser : Bool) (capacity : Nat) :
    Keeps Ctx.templates (do
      let reply ← buildAssertionResponse crypto env holder privkey id rpIdHash clientDataHash flags total includeUser capacity
      (saveCredentials crypto env).ignore
      pure reply) := by
  refine .bind (fun ctx => ?_) fun _ => .bind (.ignore templates_save) fun _ => .pure _
  obtain ⟨after, -, reached⟩ := buildAssertionResponse_counts holder privkey id rpIdHash clientDataHash flags total includeUser
    capacity ctx
  rw [reached]
  exact templates_putCounter holder after ctx

private theorem templates_getAssertion (body : Bytes) (capacity : Nat) :
    Keeps Ctx.templates (getAssertion crypto env body capacity) := by
  refine .bind (keeps_ofExcept _) fun parsed => .bind (keeps_performUv _ _) fun uv => ?_
  refine .bind (.modify fun _ => rfl) fun _ => .bind .get fun ctx => ?_
  split
  · exact templates_answer _ _ _ _ _ _ _ _ _
  · exact .fail _
  · exact .bind (.modify fun _ => rfl) fun _ => .bind .get fun _ => templates_answer _ _ _ _ _ _ _ _ _

private theorem templates_getNextAssertion (capacity : Nat) :
    Keeps Ctx.templates (getNextAssertion crypto env capacity) := by
  refine .bind .get fun ctx => .ite (.bind (.modify fun _ => rfl) fun _ => .fail _) ?_
  split
  · exact .fail _
  · exact .bind (.modify fun _ => rfl) fun _ => .bind .get fun _ => templates_answer _ _ _ _ _ _ _ _ _

private theorem templates_storeResident (cred : Credential) : Keeps Ctx.templates (storeResident crypto env cred) := by
  refine .bind .get fun ctx => .bind (keeps_need _ _) fun slot => .bind (.modify fun _ => rfl) fun _ => ?_
  refine .bind (keeps_trySave fun _ _ => rfl) fun saved => .ite (.pure _) ?_
  exact .bind (.modify fun _ => rfl) fun _ => .fail _

private theorem templates_makeCredential (body : Bytes) (capacity : Nat) :
    Keeps Ctx.templates (makeCredential crypto env body capacity) := by
  refine .bind (keeps_ofExcept _) fun parsed => .bind .get fun ctx => .ite (.fail _) ?_
  refine .bind (keeps_performUv _ _) fun uv => .bind (keeps_need _ _) fun drawn => .bind (keeps_drawHmacSecret _)
    fun secret => ?_
  refine .bind .get fun start => .bind (.modify fun _ => rfl) fun _ => ?_
  refine .bind (keeps_need _ _) fun authData => .bind (keeps_need _ _) fun signature => ?_
  have sends (id : CredentialId) (count : UInt32) (authData : Bytes) : Keeps Ctx.templates
      (sendRegistration id count authData signature capacity) :=
    .bind (keeps_need _ _) fun der => .bind (keeps_need _ _) fun bytes => .pure _
  refine .ite ?_ ?_
  · exact .bind (templates_storeResident _) fun _ => sends _ _ _
  · exact sends _ _ _

private theorem templates_credMgmtCommand (params : CredMgmtParams) (capacity : Nat) :
    Keeps Ctx.templates (credMgmtCommand crypto env params capacity) := by
  refine .bind .get fun ctx => ?_
  split
  · exact keeps_sendItems _ _
  · exact (enumerateRpsBegin_beside _).through fun _ => rfl
  · exact (enumerateRpsNext_beside _).through fun _ => rfl
  · exact (enumerateCredsBegin_beside _ _).through fun _ => rfl
  · exact (enumerateCredsNext_beside _).through fun _ => rfl
  · refine .bind (keeps_need _ _) fun id => .bind .get fun ctx => .bind (keeps_need _ _) fun slot => ?_
    exact .bind (.modify fun _ => rfl) fun _ => .bind (.ignore templates_save) fun _ => .pure _
  · refine .bind (keeps_need _ _) fun id => .bind .get fun ctx => .bind (keeps_need _ _) fun slot => .bind
      (keeps_check _ _) fun _ => ?_
    exact .bind (.modify fun _ => rfl) fun _ => .bind (.ignore templates_save) fun _ => .pure _
  · exact .fail _

private theorem templates_credentialManagement (body : Bytes) (capacity : Nat) :
    Keeps Ctx.templates (credentialManagement crypto env body capacity) := by
  refine .bind (keeps_ofExcept _) fun params => .ite (templates_credMgmtCommand params capacity) ?_
  refine .bind (keeps_authorize _ _ _ _ _) fun _ => .bind (.modify fun _ => rfl)
    fun _ => templates_credMgmtCommand params capacity

private theorem process_counted (counted : TemplatesCounted ctx) (request : Request) :
    Ends (process crypto request) ctx fun _ reached => TemplatesCounted reached := by
  by_cases continues : Cmd.ofByte request.cmd = .getNextAssertion
  · unfold process dispatch
    simp only [continues, ne_eq, not_true_eq_false, if_false]
    exact counted.congr (templates_getNextAssertion _ ctx)
  have start : TemplatesCounted ctx.dropAssertion := counted.congr rfl
  have quiet {body : Command Reply} (keeps : Keeps Ctx.templates body) :
      Ends body ctx.dropAssertion fun _ reached => TemplatesCounted reached := counted.congr (keeps ctx.dropAssertion)
  apply ends_process continues
  unfold dispatch
  cases command : Cmd.ofByte request.cmd with
  | makeCredential => exact quiet (templates_makeCredential _ _)
  | getAssertion => exact quiet (templates_getAssertion _ _)
  | getInfo => exact quiet (.bind .get fun _ => keeps_sendItems _ _)
  | clientPin => exact quiet (keeps_clientPin (fun _ => rfl) (fun _ _ => rfl) _ _)
  | reset =>
    apply Ends.get
    refine ends_check start fun _ => ends_check start fun _ => ?_
    apply Ends.andThen
    have empty : TemplatesCounted (ctx.dropAssertion.cleared request.env) :=
      ⟨(card_taken_none : (taken fun _ : TemplateSlot => false).card = 0).symm, fun _ same => nomatch same⟩
    exact empty.congr (templates_save _)
  | getNextAssertion => exact absurd command continues
  | bioEnrollment => exact bioEnrollment_counted start _ _
  | credentialManagement => exact quiet (templates_credentialManagement _ _)
  | selection => exact quiet (.bind .get fun _ => keeps_checked (.pure _))
  | unknown => exact quiet (.fail _)

end

/-- From start-up on, whatever commands come, the count of templates is that of the slots in
use, and an enrolment that goes on is in one of them and waits for samples. -/
theorem templates_counted (crypto : Crypto) (env : Env) (keypair : Keypair) (wrapKey : Buf 32) (disk : Option Bytes)
    (installed : Bool) (requests : List Request) :
    TemplatesCounted ((fido2Init crypto env keypair wrapKey disk).setUvCallback installed) ∧
    ∀ event ∈ (authenticator crypto).run ((fido2Init crypto env keypair wrapKey disk).setUvCallback installed) requests,
      TemplatesCounted event.after := by
  have fresh : TemplatesCounted (.fresh env keypair wrapKey disk) :=
    ⟨(card_taken_none : (taken fun _ : TemplateSlot => false).card = 0).symm, fun _ same => nomatch same⟩
  have loaded : Keeps Ctx.templates (loadCredentials crypto env) := keeps_loadCredentials fun _ _ _ _ _ _ => rfl
  have start : TemplatesCounted ((fido2Init crypto env keypair wrapKey disk).setUvCallback installed) :=
    fresh.congr (loaded (.fresh env keypair wrapKey disk))
  refine ⟨start, ?_⟩
  rw [← throughout_iff]
  refine Machine.run_every (fun _ ctx => TemplatesCounted ctx) ?_ ?_ start requests
  · intro _ ctx request counted
    exact process_counted counted request
  · intro _ ctx request counted
    exact process_counted counted request

end Hiya.Fido2
