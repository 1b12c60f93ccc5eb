import Hiya.Proofs.CommandSteps

/-! What one command does to the table of credentials, to the count beside it and to a
running enumeration of it. Every guarantee that needs more of the table than the ledger
shows is derived from this list. -/

namespace Hiya.Fido2
open Library Cbor
open Proc (Ends Keeps)

def Recounted (before after : Credential) : Prop := after = { before with signCount := after.signCount }

theorem Recounted.refl (cred : Credential) : Recounted cred cred := rfl

theorem Recounted.trans {first second third : Credential} (one : Recounted first second) (two : Recounted second third) :
    Recounted first third := by
  unfold Recounted at *
  rw [two, one]

structure Recounts (before after : Ctx) : Prop where
  credentials : ∀ slot, Recounted (before.credentials slot) (after.credentials slot)
  count : after.credentialCount = before.credentialCount
  listing : after.credEnum = before.credEnum

instance : IsPreorder Ctx Recounts where
  refl _ := ⟨fun _ => .refl _, rfl, rfl⟩
  trans _ _ _ one two := ⟨fun slot => (one.credentials slot).trans (two.credentials slot), two.count.trans one.count,
    two.listing.trans one.listing⟩

section
variable (crypto : Crypto) (request : Request) (ctx : Ctx)

/-- The resident credential a MakeCredential has ready to store, if it gets that far. -/
def residentOf : Option Credential :=
  if request.command ≠ .makeCredential then none
  else match parseMakeCredParams crypto request.body with
    | .error _ => none
    | .ok (params, excludeList) =>
      if ¬ params.rkRequested ∨ excludeList.ids.any (ctx.excludes crypto params.rp.idHash) then none
      else match (makeCredentialUv crypto request.env params ctx).1 with
        | .error _ => none
        | .ok uv => do
          let (keypair, credId) ← drawCredentialId crypto request.env ctx.wrapKey params.rp.idHash
          let secret ← (drawHmacSecret request.env params.hmacSecretRequested ctx).1.toOption
          let authData ← registrationData params uv (ctx.globalSignCount + 1) credId keypair.publicKey
          let _ ← crypto.ecdsaSign keypair.privateKey (crypto.sha256 (authData ++ params.clientDataHash.bytes))
            request.env.signEntropy
          pure (residentCredential request.env params keypair credId secret (ctx.globalSignCount + 1))

def residentAnswer : Option Bytes :=
  match parseMakeCredParams crypto request.body with
  | .error _ => none
  | .ok (params, _) =>
    match (makeCredentialUv crypto request.env params ctx).1 with
    | .error _ => none
    | .ok uv => do
      let (keypair, credId) ← drawCredentialId crypto request.env ctx.wrapKey params.rp.idHash
      let authData ← registrationData params uv (ctx.globalSignCount + 1) credId keypair.publicKey
      let signature ← crypto.ecdsaSign keypair.privateKey (crypto.sha256 (authData ++ params.clientDataHash.bytes))
        request.env.signEntropy
      let der ← ecdsaSigToDer signature
      encodeItems request.capacity (registrationItems authData der)

end

def Ctx.storing (ctx : Ctx) (slot : CredSlot) (cred : Credential) : Ctx :=
  let spent : Ctx := { ctx.dropAssertion with globalSignCount := ctx.globalSignCount + 1 }
  { spent.putCredential slot cred with
    credentialCount := ctx.credentialCount + if (ctx.credentials slot).inUse then 0 else 1 }

def Ctx.spent (ctx : Ctx) : Ctx := { ctx.dropAssertion with globalSignCount := ctx.globalSignCount + 1 }

def Request.management (request : Request) : Option CredMgmtParams :=
  if request.command ≠ .credentialManagement then none else (parseCredMgmtParams request.body).toOption

def Ctx.slotsOf (ctx : Ctx) (rpIdHash : Buf 32) : List CredSlot :=
  credSlots.filter fun slot => (ctx.credentials slot).inUse && (ctx.credentials slot).rp.idHash = rpIdHash

/-- What becomes of the enumeration of credentials. -/
inductive Relists (request : Request) (ctx : Ctx) : CredEnum → Prop
  | stops {listing : CredEnum} (none : listing.credSlots = []) : Relists request ctx listing
  | begins {listing : CredEnum} {params : CredMgmtParams} {rpIdHash : Buf 32} (asked : request.management = some params)
      (sub : params.subCommand = 0x04) (given : params.rpIdHash = some rpIdHash)
      (slots : listing.credSlots = ctx.slotsOf rpIdHash)
      (first : listing.credIndex = 1) : Relists request ctx listing
  | advances {listing : CredEnum} (same : listing.credSlots = ctx.credEnum.credSlots)
      (further : ctx.credEnum.credIndex ≤ listing.credIndex) : Relists request ctx listing

/-- One command, by what it leaves of the table. -/
inductive TableStep (crypto : Crypto) (request : Request) (ctx : Ctx) : Ctx → Prop
  | counts {reached : Ctx} (unstored : ∀ cred, residentOf crypto request ctx = some cred →
    ctx.slotFor cred.rp.idHash cred.user.id = none)
      (same : Recounts ctx reached) : TableStep crypto request ctx reached
  | stores {reached : Ctx} {cred : Credential} {slot : CredSlot} (resident : residentOf crypto request ctx = some cred)
      (place : ctx.slotFor cred.rp.idHash cred.user.id = some slot)
      (saved : (saveCredentials crypto request.env (ctx.storing slot cred)).1 = .ok ())
      (credentials : reached.credentials = Function.update ctx.credentials slot cred)
      (count : reached.credentialCount = ctx.credentialCount + if (ctx.credentials slot).inUse then 0 else 1)
      (listing : reached.credEnum = ctx.credEnum) : TableStep crypto request ctx reached
  | frees {reached : Ctx} {cred : Credential} {slot : CredSlot} (resident : residentOf crypto request ctx = some cred)
      (place : ctx.slotFor cred.rp.idHash cred.user.id = some slot)
      (failed : (saveCredentials crypto request.env (ctx.storing slot cred)).1 ≠ .ok ())
      (credentials : reached.credentials = Function.update ctx.credentials slot { cred with inUse := false })
      (count : reached.credentialCount = ctx.credentialCount) (listing : reached.credEnum = ctx.credEnum) :
      TableStep crypto request ctx reached
  | deletes {reached : Ctx} {slot : CredSlot} (other : request.command ≠ .makeCredential)
    (inUse : (ctx.credentials slot).inUse = true)
      (credentials : reached.credentials = Function.update ctx.credentials slot .zero)
      (count : reached.credentialCount = ctx.credentialCount - 1) (listing : reached.credEnum.credSlots = []) :
      TableStep crypto request ctx reached
  | renames {reached : Ctx} {slot : CredSlot} {user : User} (other : request.command ≠ .makeCredential)
      (credentials : reached.credentials = Function.update ctx.credentials slot { ctx.credentials slot with user })
      (count : reached.credentialCount = ctx.credentialCount) (listing : reached.credEnum.credSlots = []) :
      TableStep crypto request ctx reached
  | lists {reached : Ctx} (other : request.command ≠ .makeCredential) (credentials : reached.credentials = ctx.credentials)
      (count : reached.credentialCount = ctx.credentialCount) (listing : Relists request ctx reached.credEnum) :
      TableStep crypto request ctx reached
  | clears {reached : Ctx} (other : request.command ≠ .makeCredential)
    (unused : ∀ slot, (reached.credentials slot).inUse = false)
      (count : reached.credentialCount = 0) (listing : reached.credEnum.credSlots = []) : TableStep crypto request ctx reached

/-- The ways a registration can end, by its outcome and the table. -/
inductive Registers (crypto : Crypto) (request : Request) (ctx : Ctx) : Except Status Reply → Ctx → Prop
  | elsewhere {outcome : Except Status Reply} {reached : Ctx}
      (unstored : ∀ cred, residentOf crypto request ctx = some cred → ctx.slotFor cred.rp.idHash cred.user.id = none)
      (credentials : reached.credentials = ctx.credentials) (count : reached.credentialCount = ctx.credentialCount)
      (listing : reached.credEnum = ctx.credEnum) : Registers crypto request ctx outcome reached
  | stores {outcome : Except Status Reply} {reached : Ctx} {cred : Credential} {slot : CredSlot}
      (resident : residentOf crypto request ctx = some cred) (place : ctx.slotFor cred.rp.idHash cred.user.id = some slot)
      (saved : (saveCredentials crypto request.env (ctx.storing slot cred)).1 = .ok ())
      (answers : outcome.isOk = (residentAnswer crypto request ctx).isSome)
      (credentials : reached.credentials = Function.update ctx.credentials slot cred)
      (count : reached.credentialCount = ctx.credentialCount + if (ctx.credentials slot).inUse then 0 else 1)
      (listing : reached.credEnum = ctx.credEnum) : Registers crypto request ctx outcome reached
  | frees {problem : Status} {reached : Ctx} {cred : Credential} {slot : CredSlot}
      (resident : residentOf crypto request ctx = some cred) (place : ctx.slotFor cred.rp.idHash cred.user.id = some slot)
      (failed : (saveCredentials crypto request.env (ctx.storing slot cred)).1 ≠ .ok ())
      (credentials : reached.credentials = Function.update ctx.credentials slot { cred with inUse := false })
      (count : reached.credentialCount = ctx.credentialCount) (listing : reached.credEnum = ctx.credEnum) :
      Registers crypto request ctx (.error problem) reached

section
variable {crypto : Crypto} {request : Request} {ctx : Ctx}

/-- The table part of the context. -/
def Ctx.table (ctx : Ctx) : (CredSlot → Credential) × Nat × CredEnum := (ctx.credentials, ctx.credentialCount, ctx.credEnum)

theorem recounts_of_table {before after : Ctx} (same : after.table = before.table) : Recounts before after := by
  obtain ⟨credentials, count, listing⟩ : after.credentials = before.credentials ∧
    after.credentialCount = before.credentialCount ∧
      after.credEnum = before.credEnum := by simpa only [Ctx.table, Prod.mk.injEq] using same
  exact ⟨fun slot => by rw [credentials]; exact .refl _, count, listing⟩

theorem residentOf_other (other : request.command ≠ .makeCredential) : residentOf crypto request ctx = none := if_pos other

/-- Such a credential has been through the authenticator data of its registration. -/
theorem residentOf_made {cred : Credential} (resident : residentOf crypto request ctx = some cred) :
    ∃ (params : MakeCredParams) (uv : Bool) (keypair : Keypair) (id : CredentialId) (secret : Option (Buf 32))
    (authData : Bytes),
      registrationData params uv (ctx.globalSignCount + 1) id keypair.publicKey = some authData ∧
        cred = residentCredential request.env params keypair id secret (ctx.globalSignCount + 1) := by
  unfold residentOf at resident
  split at resident
  · cases resident
  split at resident
  · cases resident
  split at resident
  · cases resident
  split at resident
  · cases resident
  · simp only [Option.bind_eq_bind, Option.bind_eq_some_iff] at resident
    obtain ⟨drawn, -, secret, -, authData, built, signature, -, made⟩ := resident
    exact ⟨_, _, _, _, secret, authData, built, (Option.some.inj made).symm⟩

theorem residentOf_inUse {cred : Credential} (resident : residentOf crypto request ctx = some cred) : cred.inUse = true := by
  obtain ⟨params, uv, keypair, id, secret, authData, -, rfl⟩ := residentOf_made resident
  rfl

theorem TableStep.quiet {reached : Ctx} (none : residentOf crypto request ctx = none) (same : Recounts ctx reached) :
    TableStep crypto request ctx reached := by
  refine .counts (fun cred resident => ?_) same
  rw [none] at resident
  cases resident

theorem table_saveCredentials {env : Env} : Keeps Ctx.table (saveCredentials crypto env) :=
    keeps_saveCredentials fun _ _ => rfl

theorem putCounter_recounts (holder : Option CredSlot) (count : UInt32) (ctx : Ctx) :
    Recounts ctx (ctx.putCounter holder count) := by
  cases holder with
  | none => exact ⟨fun slot => .refl _, rfl, rfl⟩
  | some place =>
    refine ⟨fun slot => ?_, rfl, rfl⟩
    change Recounted _ (Function.update ctx.credentials place _ slot)
    by_cases here : slot = place
    · rw [here, Function.update_self]
      rfl
    · rw [Function.update_of_ne here]
      exact .refl _

theorem recounts_noted (ctx : Ctx) (assertionMatches : List CredSlot) (assertionIndex : Nat)
    (assertionClientDataHash assertionRpIdHash : Buf 32) (assertionFlags : UInt8) (assertionTimestamp : UInt64) :
    Recounts ctx { ctx with
      assertionMatches, assertionIndex, assertionClientDataHash, assertionRpIdHash, assertionFlags, assertionTimestamp } :=
  recounts_of_table rfl

theorem moves_save {env : Env} : Proc.Moves Recounts (saveCredentials crypto env) :=
  fun ctx => recounts_of_table (table_saveCredentials ctx)

theorem table_storing {reached : Ctx} {slot : CredSlot} {cred : Credential}
    (same : reached.table = (ctx.storing slot cred).table) :
    reached.credentials = Function.update ctx.credentials slot cred ∧
      reached.credentialCount = ctx.credentialCount + (if (ctx.credentials slot).inUse then 0 else 1) ∧
      reached.credEnum = ctx.credEnum :=
  ⟨congrArg Prod.fst same, congrArg (fun table => table.2.1) same, congrArg (fun table => table.2.2) same⟩

theorem Registers.quiet {outcome : Except Status Reply} {reached : Ctx} (none : residentOf crypto request ctx = none)
    (same : reached.table = ctx.table) : Registers crypto request ctx outcome reached := by
  refine .elsewhere (fun cred resident => ?_) (congrArg Prod.fst same) (congrArg (fun table => table.2.1) same)
    (congrArg (fun table => table.2.2) same)
  rw [none] at resident
  cases resident

theorem storeResident_registers {cred : Credential} (resident : residentOf crypto request ctx = some cred)
    {next : Unit → Command Reply} (quiet : Keeps Ctx.table (next ()))
    (answers : ∀ start, ((next () start).1).isOk = (residentAnswer crypto request ctx).isSome) :
    Ends (storeResident crypto request.env cred >>= next) ctx.spent (Registers crypto request ctx) := by
  apply Ends.bind
  apply Ends.get
  refine ends_value (fun missing => .elsewhere (fun other same => ?_) rfl rfl rfl) fun slot found => ?_
  · rw [resident] at same
    cases same
    exact missing
  have place : ctx.slotFor cred.rp.idHash cred.user.id = some slot := found
  have written : (saveCredentials crypto request.env (ctx.storing slot cred)).2.table = (ctx.storing slot cred).table :=
    table_saveCredentials _
  apply Ends.andThen
  change Ends _ (ctx.storing slot cred) _
  apply ends_trySave
  · intro saved
    obtain ⟨credentials, count, listing⟩ := table_storing ((quiet _).trans written)
    exact .stores resident place saved (answers _) credentials count listing
  · intro failed
    obtain ⟨credentials, count, listing⟩ := table_storing written
    apply Ends.andThen
    refine .frees resident place failed ?_ ?_ listing
    · change Function.update (saveCredentials crypto request.env (ctx.storing slot cred)).2.credentials slot _ = _
      rw [credentials, Function.update_self, Function.update_idem]
    · change (saveCredentials crypto request.env
        (ctx.storing slot cred)).2.credentialCount - (if (ctx.credentials slot).inUse then 0 else 1) = _
      rw [count, Nat.add_sub_cancel]

/-- The credential a registration stores, once its parameters are known. -/
theorem residentOf_parsed {params : MakeCredParams} {excludeList : IdList} {uv : Bool}
    (command : request.command = .makeCredential)
    (parsed : parseMakeCredParams crypto request.body = .ok (params, excludeList))
    (resident : params.rkRequested = true) (included : ¬ excludeList.ids.any (ctx.excludes crypto params.rp.idHash) = true)
    (verified : (makeCredentialUv crypto request.env params ctx).1 = .ok uv) :
    residentOf crypto request ctx =
      (drawCredentialId crypto request.env ctx.wrapKey params.rp.idHash).bind fun drawn =>
        ((drawHmacSecret request.env params.hmacSecretRequested ctx).1.toOption).bind fun secret =>
          (registrationData params uv (ctx.globalSignCount + 1) drawn.2 drawn.1.publicKey).bind fun authData =>
            (crypto.ecdsaSign drawn.1.privateKey (crypto.sha256 (authData ++ params.clientDataHash.bytes))
              request.env.signEntropy).bind fun _ =>
                some (residentCredential request.env params drawn.1 drawn.2 secret (ctx.globalSignCount + 1)) := by
  unfold residentOf
  simp only [command, parsed, verified, resident, included, ne_eq, not_true_eq_false, if_false]
  rfl

theorem residentAnswer_parsed {params : MakeCredParams} {excludeList : IdList} {uv : Bool}
    (parsed : parseMakeCredParams crypto request.body = .ok (params, excludeList))
    (verified : (makeCredentialUv crypto request.env params ctx).1 = .ok uv) :
    residentAnswer crypto request ctx =
      (drawCredentialId crypto request.env ctx.wrapKey params.rp.idHash).bind fun drawn =>
        (registrationData params uv (ctx.globalSignCount + 1) drawn.2 drawn.1.publicKey).bind fun authData =>
          (crypto.ecdsaSign drawn.1.privateKey (crypto.sha256 (authData ++ params.clientDataHash.bytes))
            request.env.signEntropy).bind fun signature =>
              (ecdsaSigToDer signature).bind fun der => encodeItems request.capacity (registrationItems authData der) := by
  unfold residentAnswer
  simp only [parsed, verified]
  rfl

theorem sendRegistration_answers {id : CredentialId} {signCount : UInt32} {authData : Bytes} {signature : Buf 64}
    {capacity : Nat}
    (start : Ctx) : ((sendRegistration id signCount authData signature capacity start).1).isOk =
      ((ecdsaSigToDer signature).bind fun der => encodeItems capacity (registrationItems authData der)).isSome := by
  unfold sendRegistration
  cases ecdsaSigToDer signature with
  | none => rfl
  | some der =>
    rw [Option.bind_some]
    change ((Command.need (encodeItems capacity (registrationItems authData der)) .other >>= _) start).1.isOk = _
    cases encodeItems capacity (registrationItems authData der) with
    | none => rfl
    | some bytes => rfl

/-- The second half of a registration, for a credential that is kept in the table. -/
theorem register_registers {params : MakeCredParams} {uv : Bool} {keypair : Keypair} {id : CredentialId}
    {secret : Option (Buf 32)}
    (resident : params.rkRequested = true)
    (known : residentOf crypto request ctx =
      (registrationData params uv (ctx.globalSignCount + 1) id keypair.publicKey).bind fun authData =>
        (crypto.ecdsaSign keypair.privateKey (crypto.sha256 (authData ++ params.clientDataHash.bytes))
          request.env.signEntropy).bind fun _ =>
            some (residentCredential request.env params keypair id secret (ctx.globalSignCount + 1)))
    (answer : residentAnswer crypto request ctx =
      (registrationData params uv (ctx.globalSignCount + 1) id keypair.publicKey).bind fun authData =>
        (crypto.ecdsaSign keypair.privateKey (crypto.sha256 (authData ++ params.clientDataHash.bytes))
          request.env.signEntropy).bind fun signature =>
            (ecdsaSigToDer signature).bind fun der => encodeItems request.capacity (registrationItems authData der)) :
    Ends (register crypto request.env params uv keypair id secret request.capacity) ctx.dropAssertion
      (Registers crypto request ctx) := by
  have spent {problem : Status} (none : residentOf crypto request ctx = none) :
    Registers crypto request ctx (.error problem) ctx.spent :=
    .quiet none rfl
  apply Ends.get
  apply Ends.andThen
  refine ends_value (fun missing => spent ?_) fun authData made => ?_
  · have missing : registrationData params uv (ctx.globalSignCount + 1) id keypair.publicKey = none := missing
    rw [known, missing, Option.bind_none]
  have made : registrationData params uv (ctx.globalSignCount + 1) id keypair.publicKey = some authData := made
  refine ends_value (fun missing => spent ?_) fun signature signed => ?_
  · rw [known, made, Option.bind_some, missing, Option.bind_none]
  rw [made, Option.bind_some, signed, Option.bind_some] at known answer
  apply Ends.ite
  · intro _
    refine storeResident_registers known ?_ fun start => ?_
    · exact .bind (keeps_need _ _) fun der => .bind (keeps_need _ _) fun bytes => .pure _
    · rw [answer]
      exact sendRegistration_answers start
  · exact fun elsewhere => absurd resident elsewhere

/-- A registration that keeps nothing in the table. -/
theorem register_elsewhere {params : MakeCredParams} {uv : Bool} {keypair : Keypair} {id : CredentialId}
    {secret : Option (Buf 32)}
    (elsewhere : ¬ params.rkRequested = true) :
    Keeps Ctx.table (register crypto request.env params uv keypair id secret request.capacity) := by
  refine .bind .get fun start => .bind (.modify fun _ => rfl) fun _ => ?_
  refine .bind (keeps_need _ _) fun authData => .bind (keeps_need _ _) fun signature => ?_
  rw [if_neg elsewhere]
  exact .bind (keeps_need _ _) fun der => .bind (keeps_need _ _) fun bytes => .pure _

theorem keeps_drawHmacSecret {γ : Type} {view : Ctx → γ} {env : Env} (requested : Bool) :
    Keeps view (drawHmacSecret env requested) := .ite (.bind (keeps_need _ _) fun _ => .pure _) (.pure _)

theorem residentOf_elsewhere {params : MakeCredParams} {excludeList : IdList}
    (parsed : parseMakeCredParams crypto request.body = .ok (params, excludeList))
    (elsewhere : ¬ params.rkRequested = true ∨ excludeList.ids.any (ctx.excludes crypto params.rp.idHash) = true) :
    residentOf crypto request ctx = none := by
  unfold residentOf
  rw [parsed]
  simp only [if_pos elsewhere, ite_self]

theorem makeCredential_registers (command : request.command = .makeCredential) :
    Ends (makeCredential crypto request.env request.body request.capacity) ctx.dropAssertion
    (Registers crypto request ctx) := by
  have early {problem : Status} (none : residentOf crypto request ctx = none) :
      Registers crypto request ctx (.error problem) ctx.dropAssertion := .quiet none rfl
  refine ends_outcome (fun problem failed => early ?_) fun parsed? parsed => ?_
  · unfold residentOf
    rw [failed, ite_self]
  obtain ⟨params, excludeList⟩ := parsed?
  apply Ends.get
  apply Ends.ite
  · exact fun excluded => early (residentOf_elsewhere parsed (.inr excluded))
  intro included
  have included : ¬ excludeList.ids.any (ctx.excludes crypto params.rp.idHash) = true := included
  by_cases resident : params.rkRequested = true
  · refine ends_uv (fun problem failed => early ?_) fun uv verified => ?_
    · unfold residentOf
      rw [parsed]
      simp only [show (makeCredentialUv crypto request.env params ctx).1 = .error problem from failed, ite_self]
    have known := residentOf_parsed command parsed resident included verified
    have answer := residentAnswer_parsed parsed verified
    refine ends_value (fun missing => early ?_) fun drawn drew => ?_
    · rw [known, show drawCredentialId crypto request.env ctx.wrapKey params.rp.idHash = none from missing, Option.bind_none]
    rw [show drawCredentialId crypto request.env ctx.wrapKey params.rp.idHash = some drawn from drew,
      Option.bind_some] at known answer
    apply Ends.bind
    unfold drawHmacSecret at known ⊢
    apply Ends.ite
    · intro wanted
      rw [if_pos wanted] at known
      refine ends_value (fun missing => early ?_) fun secret drew => ?_
      · rw [known, missing]
        rfl
      · rw [drew] at known
        exact register_registers resident known answer
    · intro unwanted
      rw [if_neg unwanted] at known
      exact register_registers resident known answer
  · have quiet : Keeps Ctx.table (makeCredentialUv crypto request.env params >>= fun uv =>
        Command.need (drawCredentialId crypto request.env ctx.wrapKey params.rp.idHash) .other >>= fun drawn =>
          drawHmacSecret request.env params.hmacSecretRequested >>= fun secret =>
            register crypto request.env params uv drawn.1 drawn.2 secret request.capacity) :=
      .bind (keeps_performUv _ _) fun _ => .bind (keeps_need _ _) fun _ => .bind (keeps_drawHmacSecret _) fun _ =>
        register_elsewhere resident
    exact .quiet (residentOf_elsewhere parsed (.inl resident)) (quiet ctx.dropAssertion)

theorem Registers.table {outcome : Except Status Reply} {reached : Ctx}
    (ended : Registers crypto request ctx outcome reached) :
    TableStep crypto request ctx reached := by
  cases ended with
  | elsewhere unstored credentials count listing =>
    exact .counts unstored ⟨fun slot => by rw [credentials]; exact .refl _, count, listing⟩
  | stores resident place saved answers credentials count listing =>
    exact .stores resident place saved credentials count listing
  | frees resident place failed credentials count listing => exact .frees resident place failed credentials count listing

section
variable {params : CredMgmtParams} {start : Ctx}

structure Prepared (request : Request) (ctx start : Ctx) : Prop where
  command : request.command = .credentialManagement
  credentials : start.credentials = ctx.credentials
  count : start.credentialCount = ctx.credentialCount
  listing : start.credEnum = ctx.credEnum ∨ start.credEnum.credSlots = []

theorem Prepared.other (prepared : Prepared request ctx start) : request.command ≠ .makeCredential := by
  rw [prepared.command]
  decide

theorem Prepared.waits (prepared : Prepared request ctx start) : Relists request ctx start.credEnum := by
  rcases prepared.listing with same | none
  · exact .advances (by rw [same]) (by rw [same])
  · exact .stops none

/-- The enumeration may change, the table does not. -/
theorem Prepared.lists (prepared : Prepared request ctx start) {reached : Ctx}
    (beside : reached.besideEnum = start.besideEnum)
    (listing : Relists request ctx reached.credEnum) : TableStep crypto request ctx reached := by
  have same := eq_of_besideEnum beside
  refine .lists prepared.other ?_ ?_ listing
  · rw [same]
    exact prepared.credentials
  · rw [same]
    exact prepared.count

theorem Prepared.refuses (prepared : Prepared request ctx start) : TableStep crypto request ctx start :=
  prepared.lists rfl prepared.waits

theorem enumerateRpsBegin_table (prepared : Prepared request ctx start) (cleared : start.credEnum.credSlots = []) :
    Ends (enumerateRpsBegin request.capacity) start fun _ reached => TableStep crypto request ctx reached := by
  refine prepared.lists (enumerateRpsBegin_beside _ start) (.stops ?_)
  have kept : Keeps (fun ctx => ctx.credEnum.credSlots) (enumerateRpsBegin request.capacity) := by
    refine .bind .get fun ctx => .bind (.modify fun _ => rfl) fun _ => ?_
    split
    · exact .fail _
    · exact .bind (.modify fun _ => rfl) fun _ => keeps_sendItems _ _
  exact (kept start).trans cleared

theorem enumerateCredsBegin_table (prepared : Prepared request ctx start)
    (asked : request.management = some params) (sub : params.subCommand = 0x04) :
    Ends (enumerateCredsBegin params request.capacity) start fun _ reached => TableStep crypto request ctx reached := by
  refine ends_need prepared.refuses fun rpIdHash given => ?_
  apply Ends.get
  have slots : (credSlots.filter fun slot => (start.credentials slot).inUse && (start.credentials slot).rp.idHash =
    rpIdHash) =
      ctx.slotsOf rpIdHash := by
    rw [prepared.credentials]
    rfl
  rw [slots]
  apply Ends.andThen
  cases found : ctx.slotsOf rpIdHash with
  | nil => exact prepared.lists rfl (.stops rfl)
  | cons first rest =>
    apply Ends.andThen
    have begun : TableStep crypto request ctx
        { start with credEnum := { start.credEnum with credSlots := first :: rest, credIndex := 1 } } :=
      prepared.lists rfl (.begins asked sub given found.symm rfl)
    exact ends_sendItems (fun _ => begun) fun _ _ => begun

theorem enumerateRpsNext_table (prepared : Prepared request ctx start) :
    Ends (enumerateRpsNext request.capacity) start fun _ reached => TableStep crypto request ctx reached := by
  refine prepared.lists (enumerateRpsNext_beside _ start) ?_
  have kept : Keeps (fun ctx => (ctx.credEnum.credSlots, ctx.credEnum.credIndex)) (enumerateRpsNext request.capacity) :=
    .bind .get fun _ => .bind (keeps_need _ _) fun _ => .bind (.modify fun _ => rfl) fun _ => keeps_sendItems _ _
  obtain ⟨slots, index⟩ := Prod.mk.inj (kept start)
  rcases prepared.listing with same | none
  · exact .advances (by rw [slots, same]) (by rw [index, same])
  · exact .stops (slots.trans none)

theorem enumerateCredsNext_table (prepared : Prepared request ctx start) :
    Ends (enumerateCredsNext request.capacity) start fun _ reached => TableStep crypto request ctx reached := by
  refine prepared.lists (enumerateCredsNext_beside _ start) ?_
  have moved : Ends (enumerateCredsNext request.capacity) start fun _ reached =>
      reached.credEnum.credSlots = start.credEnum.credSlots ∧ start.credEnum.credIndex ≤ reached.credEnum.credIndex := by
    apply Ends.get
    refine ends_need ⟨rfl, Nat.le_refl _⟩ fun slot _ => ?_
    apply Ends.andThen
    exact ends_sendItems (fun _ => ⟨rfl, Nat.le_succ _⟩) fun _ _ => ⟨rfl, Nat.le_succ _⟩
  obtain ⟨slots, index⟩ := moved
  rcases prepared.listing with same | none
  · exact .advances (by rw [slots, same]) (by rw [← same]; exact index)
  · exact .stops (slots.trans none)

theorem deleteCredential_table (prepared : Prepared request ctx start) (cleared : start.credEnum.credSlots = []) :
    Ends (deleteCredential crypto request.env params) start fun _ reached => TableStep crypto request ctx reached := by
  refine ends_need prepared.refuses fun id _ => ?_
  apply Ends.get
  refine ends_need prepared.refuses fun slot found => ?_
  have inUse : (ctx.credentials slot).inUse = true := prepared.credentials ▸ (findCredential_some found).1
  apply Ends.andThen
  have written : (saveCredentials crypto request.env { start.putCredential slot .zero with
      credentialCount := start.credentialCount - 1 }).2.table = _ := table_saveCredentials _
  refine .deletes prepared.other inUse ?_ ?_ ?_
  · refine (congrArg Prod.fst written).trans ?_
    rw [← prepared.credentials]
    rfl
  · refine (congrArg (fun table => table.2.1) written).trans ?_
    rw [← prepared.count]
    rfl
  · exact (congrArg (fun table => table.2.2.credSlots) written).trans cleared

theorem updateUserInformation_table (prepared : Prepared request ctx start) (cleared : start.credEnum.credSlots = []) :
    Ends (updateUserInformation crypto request.env params) start fun _ reached => TableStep crypto request ctx reached := by
  refine ends_need prepared.refuses fun id _ => ?_
  apply Ends.get
  refine ends_need prepared.refuses fun slot _ => ends_check prepared.refuses fun _ => ?_
  apply Ends.andThen
  have written : (saveCredentials crypto request.env (start.putCredential slot { start.credentials slot with
      user := updatedUser params.user (start.credentials slot).user })).2.table = _ := table_saveCredentials _
  have credentials : (saveCredentials crypto request.env (start.putCredential slot { start.credentials slot with
      user := updatedUser params.user (start.credentials slot).user })).2.credentials =
      Function.update ctx.credentials slot
        { ctx.credentials slot with user := updatedUser params.user (start.credentials slot).user } := by
    rw [← prepared.credentials]
    exact congrArg Prod.fst written
  refine .renames prepared.other credentials ?_ ?_
  · exact (congrArg (fun table => table.2.1) written).trans prepared.count
  · exact (congrArg (fun table => table.2.2.credSlots) written).trans cleared

theorem credMgmtCommand_table (prepared : Prepared request ctx start) (cleared : isGetNext params.subCommand = false →
    start.credEnum.credSlots = [])
    (asked : request.management = some params) :
    Ends (credMgmtCommand crypto request.env params request.capacity) start fun _ reached =>
      TableStep crypto request ctx reached := by
  have refused : TableStep crypto request ctx start := prepared.refuses
  have sub {code : UInt32} (same : params.subCommand.toNat = code.toNat) : params.subCommand = code :=
    UInt32.toNat_inj.mp same
  have stopped {code : UInt32} (same : params.subCommand.toNat = code.toNat) (other : isGetNext code = false) :
      start.credEnum.credSlots = [] := by
    apply cleared
    rw [sub same]
    exact other
  apply Ends.get
  split
  next code => exact ends_sendItems (fun _ => refused) fun _ _ => refused
  next code => exact enumerateRpsBegin_table prepared (@stopped 0x02 code rfl)
  next code => exact enumerateRpsNext_table prepared
  next code => exact enumerateCredsBegin_table prepared asked (@sub 0x04 code)
  next code => exact enumerateCredsNext_table prepared
  next code => exact deleteCredential_table prepared (@stopped 0x06 code rfl)
  next code => exact updateUserInformation_table prepared (@stopped 0x07 code rfl)
  next => exact refused

end

theorem credentialManagement_table (command : request.command = .credentialManagement) :
    Ends (credentialManagement crypto request.env request.body request.capacity) ctx.dropAssertion
      fun _ reached => TableStep crypto request ctx reached := by
  have same : Prepared request ctx ctx.dropAssertion := ⟨command, rfl, rfl, .inl rfl⟩
  refine ends_ofExcept (fun _ => same.refuses) fun params parsed => ?_
  have asked : request.management = some params := by
    unfold Request.management
    rw [if_neg (not_not.mpr command), parsed]
    rfl
  apply Ends.ite
  · intro next
    refine credMgmtCommand_table same (fun other => ?_) asked
    rw [next] at other
    cases other
  · intro _
    have checks : Keeps Ctx.table (authorize crypto request.env permCredentialMgmt params.pinUvAuthParam params.pinProtocol
      (List.replicate 32 0xFF ++ [params.subCommand.toUInt8]) 16) := keeps_authorize _ _ _ _ _
    refine checks.ends (fun _ reached kept => .quiet (residentOf_other same.other) (recounts_of_table kept))
      fun _ reached kept => ?_
    apply Ends.andThen
    refine credMgmtCommand_table ⟨command, congrArg Prod.fst kept, congrArg (fun table => table.2.1) kept, .inr rfl⟩
      (fun _ => rfl) asked

theorem reset_table (other : request.command ≠ .makeCredential) :
    Ends (reset crypto request.env) ctx.dropAssertion fun _ reached => TableStep crypto request ctx reached := by
  have early : TableStep crypto request ctx ctx.dropAssertion := .quiet (residentOf_other other) (recounts_of_table rfl)
  apply Ends.get
  refine ends_check early fun _ => ends_check early fun _ => ?_
  apply Ends.andThen
  have written : (saveCredentials crypto request.env (ctx.dropAssertion.cleared request.env)).2.table = _ :=
    table_saveCredentials _
  refine .clears other (fun slot => ?_) (congrArg (fun table => table.2.1) written)
    (congrArg (fun table => table.2.2.credSlots) written)
  exact congrArg (fun table => (table.1 slot).inUse) written

/-- Every command is one of the listed steps of the table. -/
theorem process_table (crypto : Crypto) (request : Request) (ctx : Ctx) :
    Ends (process crypto request) ctx fun _ reached => TableStep crypto request ctx reached := by
  by_cases makes : Cmd.ofByte request.cmd = .makeCredential
  · have next : request.command ≠ .getNextAssertion := by
      change Cmd.ofByte request.cmd ≠ _
      simp [makes]
    apply ends_process next
    unfold dispatch
    rw [makes]
    exact (makeCredential_registers makes).mono fun _ _ ended => ended.table
  have none : residentOf crypto request ctx = none := residentOf_other makes
  by_cases continues : Cmd.ofByte request.cmd = .getNextAssertion
  · unfold process dispatch
    simp only [continues, ne_eq, not_true_eq_false, if_false]
    exact .quiet none (moves_getNextAssertion putCounter_recounts recounts_noted (fun _ => moves_save) _ ctx)
  have quiet {body : Command Reply} (keeps : Keeps Ctx.table body) :
      Ends body ctx.dropAssertion fun _ reached => TableStep crypto request ctx reached :=
    .quiet none (recounts_of_table (keeps ctx.dropAssertion))
  apply ends_process continues
  unfold dispatch
  cases command : Cmd.ofByte request.cmd with
  | makeCredential => exact absurd command makes
  | getAssertion =>
    have moved : Recounts ctx.dropAssertion
      (getAssertion crypto request.env request.body request.capacity ctx.dropAssertion).2 :=
      moves_getAssertion putCounter_recounts recounts_noted (fun _ => moves_save) _ _ _
    exact .quiet none ⟨moved.credentials, moved.count, moved.listing⟩
  | getInfo => exact quiet (.bind .get fun _ => keeps_sendItems _ _)
  | clientPin => exact quiet (keeps_clientPin (fun _ => rfl) (fun _ _ => rfl) _ _)
  | reset => exact reset_table makes
  | getNextAssertion => exact absurd command continues
  | bioEnrollment => exact quiet ((bioEnrollment_beside _ _).through fun _ => rfl)
  | credentialManagement => exact credentialManagement_table command
  | selection => exact quiet (.bind .get fun _ => keeps_checked (.pure _))
  | unknown => exact quiet (.fail _)

end

end Hiya.Fido2
