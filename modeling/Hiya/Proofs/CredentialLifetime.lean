import Hiya.Proofs.CommandSteps
import Hiya.Proofs.Specimens

/-! How long a credential id can be asserted. Deleting a credential and resetting
the authenticator take ids out of the table, but an id also carries its own wrapped
key, and both leave the wrap key in place. What holds is that an id is never asserted
again unless a request has it unwrapped. -/

namespace Hiya.Fido2
open Library

/-- Returned by a MakeCredential before a successful reset. -/
def Retired (past : List Exchange) (id : CredentialId) : Prop := Followed (Issues id) Resets past

/-- Deleted, and not issued again since. -/
def Deleted (past : List Exchange) (id : CredentialId) : Prop := Since (Deletes id) (Issues id) past

/-- The request neither has this id unwrapped nor makes it anew. -/
def Spares (crypto : Crypto) (id : CredentialId) (event : Exchange) : Prop :=
  unwrapTarget crypto event.input event.before ≠ some id ∧ drawnId crypto event.input event.before ≠ some id

def Absent (id : CredentialId) (ledger : Ledger) : Prop :=
  ∀ slot, (ledger.entries slot).inUse = true ∨ slot ∈ ledger.pending → (ledger.entries slot).credId ≠ id

section
variable {crypto : Crypto} {request : Request} {ctx : Ctx} {outcome : Except Status Reply} {ledger : Ledger}
  {id : CredentialId}

/-- Only a registration brings an id into the table. -/
theorem Step.absent (step : Step crypto request ctx outcome ledger) (absent : Absent id ctx.ledger)
    (other : drawnId crypto request ctx ≠ some id) : Absent id ledger := by
  intro slot held
  rcases held with inUse | waits
  · obtain ⟨place, origin⟩ := step.origin
    rcases origin slot inUse with same | ⟨-, drawn⟩
    · rw [same.credId]
      exact absent slot (.inl (same.inUse ▸ inUse))
    · intro equal
      rw [equal] at drawn
      exact other drawn
  · obtain ⟨same, admitted⟩ := step.waiting waits
    rw [same.credId]
    rcases admitted with eligible | ⟨-, pending⟩
    · exact absent slot (.inl eligible.inUse)
    · exact absent slot (.inr pending)

/-- An id that is absent from the table is asserted by unwrapping it or not at all. -/
theorem Step.not_asserted (step : Step crypto request ctx outcome ledger) (absent : Absent id ctx.ledger)
    (other : unwrapTarget crypto request ctx ≠ some id) : assertedId outcome ≠ some id := by
  intro asserted
  obtain ⟨flags, count, bytes, rfl⟩ := exists_of_assertedId asserted
  rcases step.asserted with ⟨target, -⟩ | ⟨slot, -, eligible | ⟨-, pending⟩, held, -⟩
  · exact other target
  · exact absent slot (.inl eligible.inUse) held
  · exact absent slot (.inr pending) held

theorem absent_of_cleared (unused : ∀ slot, (ledger.entries slot).inUse = false) (idle : ledger.pending = []) :
    Absent id ledger := by
  intro slot held
  rw [unused, idle] at held
  rcases held with inUse | waits
  · cases inUse
  · cases waits

theorem Step.reset_absent (step : Step crypto request ctx outcome ledger) (resets : request.command = .reset)
    (done : succeeds outcome = true) : Absent id ledger := by
  rcases step.administers done (by simp [resets]) with ⟨lasting, -⟩ | ⟨named, _, target, -⟩ | ⟨unused, idle⟩
  · exact absurd resets lasting
  · rw [command_of_deleteTarget target] at resets
    cases resets
  · exact absent_of_cleared unused idle

theorem Step.delete_absent (step : Step crypto request ctx outcome ledger) (target : deleteTarget request = some id)
    (done : succeeds outcome = true) (once : StoredOnce id ctx.ledger) : Absent id ledger := by
  have command := command_of_deleteTarget target
  rcases step.administers done (by simp [command]) with ⟨-, harmless⟩ | ⟨named, place, same, inUse, found, rfl⟩ |
    ⟨unused, idle⟩
  · rw [harmless] at target
    cases target
  · obtain rfl : named = id := Option.some.inj (same.symm.trans target)
    intro slot held holds
    replace held := held.resolve_right List.not_mem_nil
    by_cases here : slot = place
    · simp only [here, Ledger.put, Function.update_self] at held
      cases held
    · simp only [Ledger.put, Function.update_of_ne here] at held holds
      exact here (once slot place held holds inUse found)
  · exact absent_of_cleared unused idle

end

/-- Ids that become `gone` only by leaving the table are not asserted while requests
spare them. -/
theorem never_asserted {crypto : Crypto} {gone : List Exchange → CredentialId → Prop}
    {permitted : List Exchange → Exchange → Prop} (starts : ∀ id, ¬ gone [] id)
    (spares : ∀ past event id, permitted past event → gone past id → Spares crypto id event)
    (leaves : ∀ past event id, permitted past event →
      Step crypto event.input event.before event.outcome event.after.ledger → gone (past ++ [event]) id →
      gone past id ∨ Absent id event.after.ledger)
    {start : Ctx} {requests : List Request}
    (allowed : Throughout ((authenticator crypto).run start requests) permitted) :
    Throughout ((authenticator crypto).run start requests) fun past event => ∀ id, gone past id → ¬ Asserts id event := by
  have steps (state : Ctx) (request : Request) := process_step crypto request state
  refine Machine.run_throughout (fun past ctx => ∀ id, gone past id → Absent id ctx.ledger) ?_ ?_ ?_ allowed
  · intro past state request absent fits id left
    rcases leaves past _ id fits (steps state request) left with already | absent
    · exact (steps state request).absent (absent id already) (spares past _ id fits already).2
    · exact absent
  · intro past state request absent fits id left
    exact (steps state request).not_asserted (absent id left) (spares past _ id fits left).1
  · exact fun id left => absurd left (starts id)

/-- After a successful reset an id issued before it is not asserted, as long as no
request unwraps it or draws it again. -/
theorem retired_ids_stay_retired (crypto : Crypto) (start : Ctx) (requests : List Request)
    (spared : Throughout ((authenticator crypto).run start requests)
      fun past event => ∀ id, Retired past id → Spares crypto id event) :
    Throughout ((authenticator crypto).run start requests)
      fun past event => ∀ id, Retired past id → ¬ Asserts id event := by
  refine never_asserted ?_ (fun past event id fits => fits id) ?_ spared
  · rintro id ⟨front, event, back, shape, -⟩
    simp at shape
  · intro past event id _ step retired
    rcases followed_snoc.mp retired with already | ⟨-, resets, done⟩
    · exact .inl already
    · exact .inr (step.reset_absent resets done)

theorem retired_ids_stay_retired_plain :
    Throughout ((authenticator tagCipher).run (plainCtx false) [makeRequest 1, resetRequest, discoverRequest])
      fun past event => ∀ id, Retired past id → ¬ Asserts id event := by
  apply retired_ids_stay_retired
  obtain ⟨made, reset, asked, shape⟩ := List.length_eq_three.mp
    (by decide +kernel : ((authenticator tagCipher).run (plainCtx false)
      [makeRequest 1, resetRequest, discoverRequest]).length = 3)
  have seen : ((authenticator tagCipher).run (plainCtx false) [makeRequest 1, resetRequest, discoverRequest]).map
      (fun event => (unwrapTarget tagCipher event.input event.before, drawnId tagCipher event.input event.before)) =
      [(none, some (plainId 1)), (none, none), (none, none)] := by decide +kernel
  rw [shape] at seen ⊢
  simp only [List.map_cons, List.map_nil, List.cons.injEq, Prod.mk.injEq] at seen
  obtain ⟨-, ⟨resetOpens, resetDraws⟩, ⟨askedOpens, askedDraws⟩, -⟩ := seen
  refine .cons ?_ (.cons ?_ (.cons ?_ (.nil _ _)))
  · rintro id ⟨front, event, back, shape, -⟩
    simp at shape
  · exact fun id _ => ⟨by simp [resetOpens], by simp [resetDraws]⟩
  · exact fun id _ => ⟨by simp [askedOpens], by simp [askedDraws]⟩

theorem reset_leaves_ids_usable :
    ¬ ∀ crypto : Crypto, crypto.GcmExact → ∀ start requests, Throughout ((authenticator crypto).run start requests)
      fun past event => ∀ id, Retired past id → ¬ Asserts id event := by
  intro claimed
  obtain ⟨made, reset, asked, shape⟩ := List.length_eq_three.mp
    (by decide +kernel : ((authenticator tagCipher).run (plainCtx false)
      [makeRequest 1, resetRequest, allowRequest (plainId 1)]).length = 3)
  have seen : ((authenticator tagCipher).run (plainCtx false)
      [makeRequest 1, resetRequest, allowRequest (plainId 1)]).map
      (fun event => (event.input.command, succeeds event.outcome, issuedId event.outcome, assertedId event.outcome)) =
      [(.makeCredential, true, some (plainId 1), none), (.reset, true, none, none),
        (.getAssertion, true, none, some (plainId 1))] := by decide +kernel
  rw [shape] at seen
  simp only [List.map_cons, List.map_nil, List.cons.injEq, Prod.mk.injEq] at seen
  obtain ⟨⟨-, -, issued, -⟩, ⟨isReset, done, -⟩, ⟨-, -, -, asserted⟩, -⟩ := seen
  have retired : Retired [made, reset] (plainId 1) :=
    ⟨[made], reset, [], rfl, ⟨made, List.mem_singleton_self made, issued⟩, isReset, done⟩
  exact claimed tagCipher tagCipher_exact (plainCtx false) [makeRequest 1, resetRequest, allowRequest (plainId 1)]
    [made, reset] asked [] shape (plainId 1) retired asserted

/-- Once deleted, an id that was stored once is not asserted before it is issued
again, as long as no request unwraps it or draws it again. -/
theorem deleted_ids_stay_deleted (crypto : Crypto) (start : Ctx) (requests : List Request)
    (spared : Throughout ((authenticator crypto).run start requests) fun past event =>
      (∀ id, Deleted past id → Spares crypto id event) ∧
      ∀ id, deleteTarget event.input = some id → StoredOnce id event.before.ledger) :
    Throughout ((authenticator crypto).run start requests)
      fun past event => ∀ id, Deleted past id → ¬ Asserts id event := by
  refine never_asserted ?_ (fun past event id fits => fits.1 id) ?_ spared
  · rintro id ⟨front, event, back, shape, -⟩
    simp at shape
  · intro past event id fits step deleted
    rcases since_snoc.mp deleted with ⟨target, done⟩ | ⟨already, -⟩
    · exact .inr (step.delete_absent target done (fits.2 id target))
    · exact .inl already

theorem deleted_ids_stay_deleted_plain :
    Throughout ((authenticator tagCipher).run (plainCtx true)
      [residentRequest 1 1, deleteRequest (plainId 1), discoverRequest])
      fun past event => ∀ id, Deleted past id → ¬ Asserts id event := by
  apply deleted_ids_stay_deleted
  obtain ⟨made, deleted, asked, shape⟩ := List.length_eq_three.mp
    (by decide +kernel : ((authenticator tagCipher).run (plainCtx true)
      [residentRequest 1 1, deleteRequest (plainId 1), discoverRequest]).length = 3)
  have seen : ((authenticator tagCipher).run (plainCtx true)
      [residentRequest 1 1, deleteRequest (plainId 1), discoverRequest]).map
      (fun event => (unwrapTarget tagCipher event.input event.before, drawnId tagCipher event.input event.before,
        deleteTarget event.input, event.before.ledger.used)) =
      [(none, some (plainId 1), none, []), (none, none, some (plainId 1), [firstSlot]), (none, none, none, [])] := by
    decide +kernel
  rw [shape] at seen ⊢
  simp only [List.map_cons, List.map_nil, List.cons.injEq, Prod.mk.injEq] at seen
  obtain ⟨⟨-, -, madeDeletes, -⟩, ⟨deletedOpens, deletedDraws, -, used⟩, ⟨askedOpens, askedDraws, askedDeletes, -⟩, -⟩ :=
    seen
  refine .cons ⟨?_, ?_⟩ (.cons ⟨?_, ?_⟩ (.cons ⟨?_, ?_⟩ (.nil _ _)))
  · rintro id ⟨front, event, back, shape, -⟩
    simp at shape
  · exact fun id target => nomatch madeDeletes.symm.trans target
  · exact fun id _ => ⟨by simp [deletedOpens], by simp [deletedDraws]⟩
  · intro id _ first second firstUsed _ secondUsed _
    have here {slot : CredSlot} (inUse : (deleted.before.ledger.entries slot).inUse = true) : slot = firstSlot :=
      List.mem_singleton.mp (used ▸ mem_used inUse)
    rw [here firstUsed, here secondUsed]
  · exact fun id _ => ⟨by simp [askedOpens], by simp [askedDraws]⟩
  · exact fun id target => nomatch askedDeletes.symm.trans target

theorem delete_leaves_id_usable :
    ¬ ∀ crypto : Crypto, crypto.GcmExact → ∀ start requests, Throughout ((authenticator crypto).run start requests)
      fun past event => ∀ id, Deleted past id → ¬ Asserts id event := by
  intro claimed
  obtain ⟨made, deleted, asked, shape⟩ := List.length_eq_three.mp
    (by decide +kernel : ((authenticator tagCipher).run (plainCtx true)
      [residentRequest 1 1, deleteRequest (plainId 1), allowRequest (plainId 1)]).length = 3)
  have seen : ((authenticator tagCipher).run (plainCtx true)
      [residentRequest 1 1, deleteRequest (plainId 1), allowRequest (plainId 1)]).map
      (fun event => (deleteTarget event.input, succeeds event.outcome, assertedId event.outcome)) =
      [(none, true, none), (some (plainId 1), true, none), (none, true, some (plainId 1))] := by decide +kernel
  rw [shape] at seen
  simp only [List.map_cons, List.map_nil, List.cons.injEq, Prod.mk.injEq] at seen
  obtain ⟨-, ⟨target, done, -⟩, ⟨-, -, asserted⟩, -⟩ := seen
  have gone : Deleted [made, deleted] (plainId 1) := ⟨[made], deleted, [], rfl, ⟨target, done⟩, by simp⟩
  exact claimed tagCipher tagCipher_exact (plainCtx true)
    [residentRequest 1 1, deleteRequest (plainId 1), allowRequest (plainId 1)] [made, deleted] asked [] shape (plainId 1)
    gone asserted

end Hiya.Fido2
