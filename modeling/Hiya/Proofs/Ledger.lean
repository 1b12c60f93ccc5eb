import Hiya.Fido2.Process

/-! What the guarantees about credentials look at is a small part of the context:
the ids, levels and counters in the table, the global counter and the assertions
still pending. One command changes it in one of a few ways, and every guarantee
about whole runs is derived from that list. The conditions of those guarantees speak
about what a request looks up, draws or deletes. -/

namespace Hiya.Fido2
open Library

/-- What is known of one slot of the table. -/
structure Entry where
  inUse : Bool
  credId : CredentialId
  level : UInt8
  signCount : UInt32

def Credential.entry (cred : Credential) : Entry where
  inUse := cred.inUse
  credId := cred.credId
  level := cred.credProtect
  signCount := cred.signCount

structure Ledger where
  entries : CredSlot → Entry
  global : UInt32
  pending : List CredSlot

def Ctx.ledger (ctx : Ctx) : Ledger where
  entries slot := (ctx.credentials slot).entry
  global := ctx.globalSignCount
  pending := ctx.assertionMatches.drop ctx.assertionIndex

def Ledger.put (slot : CredSlot) (entry : Entry) (ledger : Ledger) : Ledger :=
  { ledger with entries := Function.update ledger.entries slot entry }

@[simp] theorem ledger_putCredential (slot : CredSlot) (cred : Credential) (ctx : Ctx) :
    (ctx.putCredential slot cred).ledger = ctx.ledger.put slot cred.entry := by
  unfold Ctx.ledger Ctx.putCredential Ledger.put
  congr 1
  funext other
  change (Function.update ctx.credentials slot cred other).entry = _
  by_cases same : other = slot
  · rw [same, Function.update_self, Function.update_self]
  · rw [Function.update_of_ne same, Function.update_of_ne same]

@[simp] theorem Ledger.put_same (slot : CredSlot) (ledger : Ledger) : ledger.put slot (ledger.entries slot) = ledger := by
  unfold Ledger.put
  rw [Function.update_eq_self]

def Request.command (request : Request) : Cmd := Cmd.ofByte request.cmd

structure Lookup where
  params : GetAssertionParams
  allowList : IdList
  uv : Bool

section
variable (crypto : Crypto) (request : Request) (ctx : Ctx)

def lookup : Option Lookup :=
  if request.command ≠ .getAssertion then none
  else match parseGetAssertionParams crypto request.body with
    | .error _ => none
    | .ok (params, allowList) =>
      match (getAssertionUv crypto request.env params ctx).1 with
      | .error _ => none
      | .ok uv => some { params, allowList, uv }

/-- The allow-list entry a GetAssertion signs for with the key inside it: the first
one that unwraps, whether or not it is in the table. -/
def unwrapTarget : Option CredentialId :=
  (lookup crypto request ctx).bind fun found =>
    found.allowList.ids.find? fun id => (ctx.unwraps crypto found.params.rpIdHash id).isSome

def Verifies : Prop := ∃ found, lookup crypto request ctx = some found ∧ found.uv = true

def Lists (id : CredentialId) : Prop := ∃ found, lookup crypto request ctx = some found ∧ id ∈ found.allowList.ids

def drawnId : Option CredentialId :=
  if request.command ≠ .makeCredential then none
  else match parseMakeCredParams crypto request.body with
    | .error _ => none
    | .ok (params, _) => (drawCredentialId crypto request.env ctx.wrapKey params.rp.idHash).map Prod.snd

/-- The id a credentialManagement request asks to delete. -/
def deleteTarget : Option CredentialId :=
  if request.command ≠ .credentialManagement then none
  else match parseCredMgmtParams request.body with
    | .error _ => none
    | .ok params => if params.subCommand = 0x06 then params.credId else none

structure Eligible (slot : CredSlot) : Prop where
  inUse : (ctx.ledger.entries slot).inUse = true
  guarded : (ctx.ledger.entries slot).level ≥ 3 → Verifies crypto request ctx
  hidden : (ctx.ledger.entries slot).level ≥ 2 →
    Verifies crypto request ctx ∨ Lists crypto request ctx (ctx.ledger.entries slot).credId

/-- The slots an assertion from the table goes through, the next one first. -/
inductive Chosen : List CredSlot → Prop
  | next {slots : List CredSlot} (continues : request.command = .getNextAssertion)
      (pending : ctx.ledger.pending = slots) : Chosen slots
  | fresh {slots : List CredSlot} (begins : (lookup crypto request ctx).isSome)
      (sealed : unwrapTarget crypto request ctx = none)
      (eligible : ∀ slot ∈ slots, Eligible crypto request ctx slot) : Chosen slots

end

/-- How an assertion ends and where it leaves the counter it used. A counter that was
spent on a failed signature is not given back. -/
inductive Counted (id : CredentialId) (count : UInt32) : Except Status Reply → UInt32 → Prop
  | asserted (flags : UInt8) (bytes : Bytes) : Counted id count (.ok (.asserted id flags (count + 1) bytes)) (count + 1)
  | spent (problem : Status) : Counted id count (.error problem) (count + 1)
  | returned (problem : Status) : Counted id count (.error problem) count

/-- Where a registration leaves the table: as it was, or with the new credential in
some slot, in use unless it could not be saved. -/
inductive Placed (id : CredentialId) (count : UInt32) (before : CredSlot → Entry) : (CredSlot → Entry) → Prop
  | nowhere : Placed id count before before
  | stored (slot : CredSlot) (inUse : Bool) (level : UInt8) :
      Placed id count before (Function.update before slot { inUse, credId := id, level, signCount := count })

inductive Registered (id : CredentialId) (count : UInt32) : Except Status Reply → Prop
  | issued (bytes : Bytes) : Registered id count (.ok (.registered id count bytes))
  | failed (problem : Status) : Registered id count (.error problem)

/-- One command, by its outcome and the ledger it leaves. -/
inductive Step (crypto : Crypto) (request : Request) (ctx : Ctx) : Except Status Reply → Ledger → Prop
  | quiet {outcome : Except Status Reply} {pending : List CredSlot}
      (plain : ∀ reply, outcome = .ok reply →
        (∃ bytes, reply = .data bytes) ∧ request.command ≠ .reset ∧ deleteTarget request = none)
      (stops : pending = [] ∨ (request.command = .getNextAssertion ∧ pending = ctx.ledger.pending)) :
      Step crypto request ctx outcome { ctx.ledger with pending }
  | registers {outcome : Except Status Reply} {id : CredentialId} {entries : CredSlot → Entry}
      (drawn : drawnId crypto request ctx = some id)
      (placed : Placed id (ctx.ledger.global + 1) ctx.ledger.entries entries)
      (ends : Registered id (ctx.ledger.global + 1) outcome) :
      Step crypto request ctx outcome { entries, global := ctx.ledger.global + 1, pending := [] }
  | unwraps {outcome : Except Status Reply} {id : CredentialId} {global : UInt32}
      (target : unwrapTarget crypto request ctx = some id) (ends : Counted id ctx.ledger.global outcome global) :
      Step crypto request ctx outcome { ctx.ledger with global, pending := [] }
  | asserts {outcome : Except Status Reply} {slot : CredSlot} {rest : List CredSlot} {signCount : UInt32}
      (chosen : Chosen crypto request ctx (slot :: rest))
      (ends : Counted (ctx.ledger.entries slot).credId (ctx.ledger.entries slot).signCount outcome signCount) :
      Step crypto request ctx outcome
        { ctx.ledger.put slot { ctx.ledger.entries slot with signCount } with pending := rest }
  | deletes {id : CredentialId} {slot : CredSlot} (target : deleteTarget request = some id)
      (inUse : (ctx.ledger.entries slot).inUse = true) (found : (ctx.ledger.entries slot).credId = id) :
      Step crypto request ctx (.ok (.data [])) { ctx.ledger.put slot Credential.zero.entry with pending := [] }
  | clears (resets : request.command = .reset) :
      Step crypto request ctx (.ok (.data []))
        { entries := fun slot => { ctx.ledger.entries slot with inUse := false }, global := 0, pending := [] }

section
variable {crypto : Crypto} {request : Request} {ctx : Ctx} {outcome : Except Status Reply} {ledger : Ledger}
  {id : CredentialId}

theorem command_of_drawn (drawn : drawnId crypto request ctx = some id) : request.command = .makeCredential := by
  by_contra other
  rw [drawnId, if_pos other] at drawn
  cases drawn

theorem command_of_looked (looked : (lookup crypto request ctx).isSome) : request.command = .getAssertion := by
  by_contra other
  rw [lookup, if_pos other] at looked
  cases looked

theorem command_of_target (target : unwrapTarget crypto request ctx = some id) : request.command = .getAssertion := by
  obtain ⟨found, looked, -⟩ := Option.bind_eq_some_iff.mp target
  exact command_of_looked (by rw [looked]; rfl)

theorem command_of_deleteTarget (target : deleteTarget request = some id) :
    request.command = .credentialManagement := by
  by_contra other
  rw [deleteTarget, if_pos other] at target
  cases target

/-- A slot an assertion from the table goes through was let through or was pending. -/
theorem Chosen.admits {slots : List CredSlot} (chosen : Chosen crypto request ctx slots) {slot : CredSlot}
    (inside : slot ∈ slots) :
    Eligible crypto request ctx slot ∨ (request.command = .getNextAssertion ∧ slot ∈ ctx.ledger.pending) := by
  cases chosen with
  | next continues pending => exact .inr ⟨continues, pending ▸ inside⟩
  | fresh _ _ eligible => exact .inl (eligible slot inside)

theorem Chosen.unsealed {slots : List CredSlot} (chosen : Chosen crypto request ctx slots) :
    unwrapTarget crypto request ctx = none := by
  cases chosen with
  | next continues _ =>
    rw [Option.eq_none_iff_forall_ne_some]
    intro id target
    rw [command_of_target target] at continues
    cases continues
  | fresh _ sealed _ => exact sealed

theorem Chosen.command {slots : List CredSlot} (chosen : Chosen crypto request ctx slots) :
    request.command = .getNextAssertion ∨ request.command = .getAssertion := by
  cases chosen with
  | next continues _ => exact .inl continues
  | fresh begins _ _ => exact .inr (command_of_looked begins)

theorem entries_put_count (ledger : Ledger) (slot other : CredSlot) (signCount : UInt32) :
    (ledger.put slot { ledger.entries slot with signCount }).entries other =
      { ledger.entries other with signCount := if other = slot then signCount else (ledger.entries other).signCount } := by
  by_cases same : other = slot
  · subst same
    simp only [Ledger.put, Function.update_self, if_true]
  · simp only [Ledger.put, Function.update_of_ne same, if_neg same]

structure SameCredential (before after : Entry) : Prop where
  inUse : after.inUse = before.inUse
  credId : after.credId = before.credId
  level : after.level = before.level

theorem SameCredential.refl (entry : Entry) : SameCredential entry entry := ⟨rfl, rfl, rfl⟩

/-- Where a credential in use comes from: it was there before, or it is the one that
was just made. -/
theorem Step.origin (step : Step crypto request ctx outcome ledger) : ∃ place, ∀ slot, (ledger.entries slot).inUse = true →
    SameCredential (ctx.ledger.entries slot) (ledger.entries slot) ∨
      (slot = place ∧ drawnId crypto request ctx = some (ledger.entries slot).credId) := by
  cases step with
  | quiet plain stops => exact ⟨⟨0, by decide⟩, fun slot _ => .inl (.refl _)⟩
  | registers drawn placed ends =>
    cases placed with
    | nowhere => exact ⟨⟨0, by decide⟩, fun slot _ => .inl (.refl _)⟩
    | stored place inUse level =>
      refine ⟨place, fun slot _ => ?_⟩
      by_cases here : slot = place
      · refine .inr ⟨here, ?_⟩
        simp only [here, Function.update_self]
        exact drawn
      · simp only [Function.update_of_ne here]
        exact .inl (.refl _)
  | unwraps target ends => exact ⟨⟨0, by decide⟩, fun slot _ => .inl (.refl _)⟩
  | @asserts _ place rest signCount chosen ends =>
    refine ⟨place, fun slot _ => .inl ?_⟩
    simp only [entries_put_count]
    exact ⟨rfl, rfl, rfl⟩
  | @deletes named place target inUse found =>
    refine ⟨place, fun slot held => .inl ?_⟩
    by_cases here : slot = place
    · simp only [here, Ledger.put, Function.update_self] at held
      cases held
    · simp only [Ledger.put, Function.update_of_ne here]
      exact .refl _
  | clears resets => exact ⟨⟨0, by decide⟩, fun slot held => nomatch held⟩

/-- A slot that waits for GetNextAssertion was let through by this request or already
waited, and holds what it held. -/
theorem Step.waiting (step : Step crypto request ctx outcome ledger) {slot : CredSlot} (waits : slot ∈ ledger.pending) :
    SameCredential (ctx.ledger.entries slot) (ledger.entries slot) ∧
      (Eligible crypto request ctx slot ∨ (request.command = .getNextAssertion ∧ slot ∈ ctx.ledger.pending)) := by
  cases step with
  | quiet plain stops =>
    rcases stops with rfl | ⟨continues, rfl⟩
    · cases waits
    · exact ⟨.refl _, .inr ⟨continues, waits⟩⟩
  | registers drawn placed ends => cases waits
  | unwraps target ends => cases waits
  | asserts chosen ends =>
    refine ⟨?_, chosen.admits (List.mem_cons_of_mem _ waits)⟩
    simp only [entries_put_count]
    exact ⟨rfl, rfl, rfl⟩
  | deletes target inUse found => cases waits
  | clears resets => cases waits

/-- Where an assertion and its counter come from. -/
theorem Step.asserted {flags : UInt8} {count : UInt32} {bytes : Bytes}
    (step : Step crypto request ctx (.ok (.asserted id flags count bytes)) ledger) :
    (unwrapTarget crypto request ctx = some id ∧ count = ctx.ledger.global + 1 ∧ ledger.global = count) ∨
      ∃ slot, unwrapTarget crypto request ctx = none ∧
        (Eligible crypto request ctx slot ∨ (request.command = .getNextAssertion ∧ slot ∈ ctx.ledger.pending)) ∧
        (ctx.ledger.entries slot).credId = id ∧ count = (ctx.ledger.entries slot).signCount + 1 ∧
        SameCredential (ctx.ledger.entries slot) (ledger.entries slot) ∧ (ledger.entries slot).signCount = count := by
  cases step with
  | quiet plain stops =>
    obtain ⟨⟨bytes, data⟩, -⟩ := plain _ rfl
    cases data
  | registers drawn placed ends => cases ends
  | unwraps target ends =>
    cases ends
    exact .inl ⟨target, rfl, rfl⟩
  | @asserts _ slot rest signCount chosen ends =>
    cases ends
    refine .inr ⟨slot, chosen.unsealed, chosen.admits List.mem_cons_self, rfl, rfl, ?_⟩
    simp only [entries_put_count, if_true]
    exact ⟨⟨rfl, rfl, rfl⟩, trivial⟩

theorem Step.issued {count : UInt32} {bytes : Bytes}
    (step : Step crypto request ctx (.ok (.registered id count bytes)) ledger) :
    drawnId crypto request ctx = some id ∧ ledger.global = count ∧
      Placed id count ctx.ledger.entries ledger.entries := by
  cases step with
  | quiet plain stops =>
    obtain ⟨⟨bytes, data⟩, -⟩ := plain _ rfl
    cases data
  | registers drawn placed ends =>
    cases ends
    exact ⟨drawn, rfl, placed⟩
  | unwraps target ends => cases ends
  | asserts chosen ends => cases ends

def succeeds : Except Status Reply → Bool
  | .ok _ => true
  | .error _ => false

/-- What a successful command can be when it neither makes nor uses a credential. -/
theorem Step.administers (step : Step crypto request ctx outcome ledger) (done : succeeds outcome = true)
    (other : request.command ≠ .makeCredential ∧ request.command ≠ .getAssertion ∧ request.command ≠ .getNextAssertion) :
    (request.command ≠ .reset ∧ deleteTarget request = none) ∨
      (∃ named slot, deleteTarget request = some named ∧ (ctx.ledger.entries slot).inUse = true ∧
        (ctx.ledger.entries slot).credId = named ∧
        ledger = { ctx.ledger.put slot Credential.zero.entry with pending := [] }) ∨
      (∀ slot, (ledger.entries slot).inUse = false) ∧ ledger.pending = [] := by
  obtain ⟨noMake, noBegin, noNext⟩ := other
  cases step with
  | quiet plain stops =>
    cases outcome with
    | error problem => cases done
    | ok reply => exact .inl (plain reply rfl).2
  | registers drawn placed ends => exact absurd (command_of_drawn drawn) noMake
  | unwraps target ends => exact absurd (command_of_target target) noBegin
  | asserts chosen ends =>
    rcases chosen.command with command | command
    · exact absurd command noNext
    · exact absurd command noBegin
  | @deletes named slot target inUse found => exact .inr (.inl ⟨named, slot, target, inUse, found, rfl⟩)
  | clears _ => exact .inr (.inr ⟨fun _ => rfl, rfl⟩)

/-- At most one slot in use holds the id. -/
def StoredOnce (id : CredentialId) (ledger : Ledger) : Prop :=
  ∀ first second, (ledger.entries first).inUse = true → (ledger.entries first).credId = id →
    (ledger.entries second).inUse = true → (ledger.entries second).credId = id → first = second

end

def Ledger.used (ledger : Ledger) : List CredSlot := credSlots.filter fun slot => (ledger.entries slot).inUse

theorem mem_used {ledger : Ledger} {slot : CredSlot} (inUse : (ledger.entries slot).inUse = true) : slot ∈ ledger.used :=
  List.mem_filter.mpr ⟨List.mem_finRange slot, inUse⟩

/-- One request to the authenticator and what became of it. -/
abbrev Exchange := Event Ctx Request (Except Status Reply)

def issuedId : Except Status Reply → Option CredentialId
  | .ok (.registered id _ _) => some id
  | _ => none

def assertedId : Except Status Reply → Option CredentialId
  | .ok (.asserted id _ _ _) => some id
  | _ => none

theorem exists_of_assertedId {outcome : Except Status Reply} {id : CredentialId} (asserted : assertedId outcome = some id) :
    ∃ flags count bytes, outcome = .ok (.asserted id flags count bytes) := by
  rcases outcome with problem | ⟨_⟩ | ⟨named, flags, count, bytes⟩ | ⟨_⟩ <;> cases asserted
  exact ⟨flags, count, bytes, rfl⟩

def Issues (id : CredentialId) (event : Exchange) : Prop := issuedId event.outcome = some id

def Asserts (id : CredentialId) (event : Exchange) : Prop := assertedId event.outcome = some id

/-- A successful authenticatorReset. -/
def Resets (event : Exchange) : Prop := event.input.command = .reset ∧ succeeds event.outcome = true

def Deletes (id : CredentialId) (event : Exchange) : Prop :=
  deleteTarget event.input = some id ∧ succeeds event.outcome = true

end Hiya.Fido2
