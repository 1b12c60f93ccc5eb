import Hiya.Proofs.TableSteps

/-! GetNextAssertion goes on with slots that an earlier command has chosen. They are still
good when it comes: nothing between the two touches the table but its counters, because
every other command forgets them before it does anything. -/

namespace Hiya.Fido2
open Library

structure Continues (before after : Ctx) : Prop where
  credentials : ∀ slot, Recounted (before.credentials slot) (after.credentials slot)
  rpIdHash : after.assertionRpIdHash = before.assertionRpIdHash
  found : after.assertionMatches = before.assertionMatches
  index : after.assertionIndex = before.assertionIndex

/-- What a GetAssertion may answer with: a credential of its party, and one it lists unless
it lists none. The level asks for a verified user, and the highest one for a list too. -/
structure Lookup.Admits (looked : Lookup) (cred : Credential) : Prop where
  party : cred.rp.idHash = looked.params.rpIdHash
  listed : looked.allowList.ids ≠ [] → cred.credId ∈ looked.allowList.ids
  guarded : looked.allowList.ids ≠ [] → cred.credProtect ≥ 3 → looked.uv = true
  hidden : looked.allowList.ids = [] → ¬ cred.credProtect ≥ 3 ∧ (cred.credProtect ≥ 2 → looked.uv = true)

theorem Lookup.Admits.congr {looked : Lookup} {before after : Credential} (admits : looked.Admits before)
    (same : Recounted before after) : looked.Admits after := by
  unfold Recounted at same
  rw [same]
  exact ⟨admits.party, admits.listed, admits.guarded, admits.hidden⟩

def Ctx.Pending (ctx : Ctx) : Prop := ctx.assertionIndex < ctx.assertionMatches.length

theorem pending_iff {ctx : Ctx} : ctx.Pending ↔ ctx.ledger.pending ≠ [] := by
  unfold Ctx.Pending
  change _ ↔ ctx.assertionMatches.drop ctx.assertionIndex ≠ []
  rw [ne_eq, List.drop_eq_nil_iff, Nat.not_le]

section
variable {crypto : Crypto} {env : Env} {request : Request} {ctx : Ctx}

theorem putCounter_continues (holder : Option CredSlot) (count : UInt32) (ctx : Ctx) :
    Continues ctx (ctx.putCounter holder count) := by
  have credentials := (putCounter_recounts holder count ctx).credentials
  cases holder with
  | none => exact ⟨credentials, rfl, rfl, rfl⟩
  | some place => exact ⟨credentials, rfl, rfl, rfl⟩

theorem Continues.saved {before after : Ctx} (same : Continues before after) {disk : Option Bytes} :
    Continues before { after with disk } := ⟨same.credentials, same.rpIdHash, same.found, same.index⟩

theorem answer_continues (holder : Option CredSlot) (privkey : Buf 32) (id : CredentialId) (rpIdHash clientDataHash : Buf 32)
    (flags : UInt8) (total : Nat) (includeUser : Bool) (capacity : Nat) (ctx : Ctx) :
    Proc.Ends (do
      let reply ← buildAssertionResponse crypto env holder privkey id rpIdHash clientDataHash flags total includeUser capacity
      (saveCredentials crypto env).ignore
      pure reply) ctx fun _ reached => Continues ctx reached := by
  apply Proc.Ends.bind
  refine (buildAssertionResponse_counts holder _ _ _ _ _ _ _ _ ctx).mono ?_
  rintro outcome reached ⟨count, -, rfl⟩
  have counted := putCounter_continues holder count ctx
  cases outcome with
  | error problem => exact counted
  | ok reply =>
    change Continues ctx (saveCredentials crypto env (ctx.putCounter holder count)).2
    rw [eq_of_besideDisk (saveCredentials_beside _)]
    exact counted.saved

theorem allowedSlots_admits {looked : Lookup} {id : CredentialId} (listed : id ∈ looked.allowList.ids) {slot : CredSlot}
    (inside : slot ∈ ctx.allowedSlots looked.params.rpIdHash looked.uv id) :
    (ctx.credentials slot).inUse = true ∧ looked.Admits (ctx.credentials slot) := by
  simp only [Ctx.allowedSlots, List.mem_filter, Bool.and_eq_true, decide_eq_true_eq, Bool.not_eq_true',
    Bool.and_eq_false_iff, decide_eq_false_iff_not] at inside
  obtain ⟨-, ⟨⟨inUse, party⟩, same⟩, free⟩ := inside
  refine ⟨inUse, party, fun _ => same ▸ listed, fun _ high => ?_, fun none => ?_⟩
  · rcases free with low | verified
    · exact absurd high low
    · simpa using verified
  · rw [none] at listed
    cases listed

theorem discoverableSlots_admits {looked : Lookup} (unlisted : looked.allowList.ids = []) {slot : CredSlot}
    (inside : slot ∈ ctx.discoverableSlots looked.params.rpIdHash looked.uv) :
    (ctx.credentials slot).inUse = true ∧ looked.Admits (ctx.credentials slot) := by
  simp only [Ctx.discoverableSlots, List.mem_filter, Bool.and_eq_true, decide_eq_true_eq, Bool.not_eq_true',
    Bool.and_eq_false_iff, decide_eq_false_iff_not] at inside
  obtain ⟨-, ⟨⟨inUse, party⟩, low⟩, free⟩ := inside
  refine ⟨inUse, party, fun listed => absurd unlisted listed, fun listed => absurd unlisted listed,
    fun _ => ⟨low, fun high => ?_⟩⟩
  rcases free with lower | verified
  · exact absurd high lower
  · simpa using verified

theorem selectAllowed_short {rpIdHash : Buf 32} {uv : Bool} {ids : List CredentialId} :
    ∀ found : List CredSlot, found.length ≤ maxCredentialsStored → ∀ slots,
      ctx.selectAllowed crypto rpIdHash uv ids found = .table slots → slots.length ≤ maxCredentialsStored := by
  induction ids with
  | nil =>
    intro found few slots chosen
    cases chosen
    exact few
  | cons id rest ih =>
    intro found few slots chosen
    unfold Ctx.selectAllowed at chosen
    split at chosen
    · cases chosen
    · exact ih _ (List.length_take_le _ _) slots chosen

/-- The slots a GetAssertion takes from the table. -/
theorem select_admits {looked : Lookup} {slots : List CredSlot}
    (chosen : ctx.select crypto looked.params.rpIdHash looked.uv looked.allowList = .table slots) :
    slots.length ≤ maxCredentialsStored ∧
      ∀ slot ∈ slots, (ctx.credentials slot).inUse = true ∧ looked.Admits (ctx.credentials slot) := by
  unfold Ctx.select at chosen
  split at chosen
  next some? =>
    refine ⟨selectAllowed_short [] (Nat.zero_le _) slots chosen, ?_⟩
    have allowed : ∀ id ∈ looked.allowList.ids, ∀ slot ∈ ctx.allowedSlots looked.params.rpIdHash looked.uv id,
        (ctx.credentials slot).inUse = true ∧ looked.Admits (ctx.credentials slot) :=
          fun id listed slot => allowedSlots_admits listed
    obtain ⟨id, key, other, -⟩ | ⟨found, same, -, good⟩ := selectAllowed_cases allowed [] fun _ inside => nomatch inside
    · cases chosen.symm.trans other
    · cases chosen.symm.trans same
      exact good
  next none? =>
    have unlisted : looked.allowList.ids = [] := List.eq_nil_of_length_eq_zero (by omega)
    cases chosen
    refine ⟨?_, fun slot inside => discoverableSlots_admits unlisted inside⟩
    exact (List.length_filter_le _ _).trans (by simp [credSlots])

def Selected (crypto : Crypto) (request : Request) (ctx reached : Ctx) : Prop :=
  reached.assertionMatches = [] ∨ ∃ looked, lookup crypto request ctx = some looked ∧
    reached.assertionRpIdHash = looked.params.rpIdHash ∧ reached.assertionMatches.length ≤ maxCredentialsStored ∧
    ∀ slot ∈ reached.assertionMatches, (ctx.credentials slot).inUse = true ∧ looked.Admits (ctx.credentials slot)

theorem getAssertion_selects (command : request.command = .getAssertion) :
    Proc.Ends (getAssertion crypto request.env request.body request.capacity) ctx.dropAssertion fun _ reached =>
      (∀ slot, Recounted (ctx.credentials slot) (reached.credentials slot)) ∧ Selected crypto request ctx reached := by
  refine ends_ofExcept (fun _ => ⟨fun _ => .refl _, .inl rfl⟩) ?_
  rintro ⟨params, allowList⟩ parsed
  refine ends_performUv (fun _ => ⟨fun _ => .refl _, .inl rfl⟩) fun uv verified => ?_
  have looked : lookup crypto request ctx = some { params, allowList, uv } := by
    unfold lookup getAssertionUv
    simp only [command, parsed, verified, ne_eq, not_true_eq_false, if_false]
  apply Proc.Ends.andThen
  apply Proc.Ends.get
  rw [select_beginAssertion]
  cases chosen : ctx.select crypto params.rpIdHash uv allowList with
  | unwrapped id privkey =>
    refine (answer_continues none privkey id _ _ _ _ _ _ _).mono fun outcome reached kept => ⟨kept.credentials, .inl ?_⟩
    rw [kept.found]
    rfl
  | table slots =>
    cases slots with
    | nil => exact ⟨fun _ => .refl _, .inl rfl⟩
    | cons first rest =>
      apply Proc.Ends.andThen
      apply Proc.Ends.get
      refine (answer_continues (some first) _ _ _ _ _ _ _ _ _).mono fun outcome reached kept => ⟨kept.credentials,
        .inr ⟨_, looked, ?_⟩⟩
      have found : reached.assertionMatches = first :: rest := kept.found
      rw [found]
      obtain ⟨few, admitted⟩ := @select_admits crypto ctx { params, allowList, uv } _ chosen
      exact ⟨kept.rpIdHash, few, admitted⟩

theorem getNextAssertion_continues :
    Proc.Ends (getNextAssertion crypto env request.capacity) ctx fun _ reached =>
      (∀ slot, Recounted (ctx.credentials slot) (reached.credentials slot)) ∧
      (reached.assertionMatches = [] ∨ (reached.assertionMatches = ctx.assertionMatches ∧
      ctx.assertionIndex ≤ reached.assertionIndex ∧
        reached.assertionRpIdHash = ctx.assertionRpIdHash)) := by
  apply Proc.Ends.get
  apply Proc.Ends.ite
  · intro late
    exact ⟨fun _ => .refl _, .inl rfl⟩
  · intro timely
    split
    next missing => exact ⟨fun _ => .refl _, .inr ⟨rfl, Nat.le_refl _, rfl⟩⟩
    next slot found =>
      apply Proc.Ends.andThen
      apply Proc.Ends.get
      refine (answer_continues (some slot) _ _ _ _ _ _ _ _ _).mono fun outcome reached kept => ⟨kept.credentials,
        .inr ⟨kept.found, ?_, kept.rpIdHash⟩⟩
      rw [kept.index]
      exact Nat.le_succ _

theorem process_next (continues : request.command = .getNextAssertion) :
    process crypto request = getNextAssertion crypto request.env request.capacity := by
  have same : Cmd.ofByte request.cmd = .getNextAssertion := continues
  unfold process dispatch
  simp only [same, ne_eq, not_true_eq_false, if_false]

theorem process_other (other : request.command ≠ .getNextAssertion) :
    process crypto request ctx = dispatch crypto request ctx.dropAssertion := by
  unfold process
  rw [if_pos (show Cmd.ofByte request.cmd ≠ .getNextAssertion from other)]
  rfl

/-- A command that neither begins nor continues an assertion leaves none. -/
theorem Step.idle {outcome : Except Status Reply} {ledger : Ledger} (step : Step crypto request ctx outcome ledger)
    (noBegin : request.command ≠ .getAssertion) (noNext : request.command ≠ .getNextAssertion) : ledger.pending = [] := by
  cases step with
  | quiet plain stops => exact stops.resolve_right fun next => noNext next.1
  | registers drawn placed ends => rfl
  | unwraps target ends => rfl
  | asserts chosen ends => exact (chosen.command.elim noNext noBegin).elim
  | deletes target inUse found => rfl
  | clears resets => rfl

end

def AdmittedBy (crypto : Crypto) (cred : Credential) (event : Exchange) : Prop :=
  ∃ looked, lookup crypto event.input event.before = some looked ∧ looked.Admits cred

/-- The slots an assertion can go on with are in use, belong to the party the assertion is
for, and were admitted by the GetAssertion it began with. -/
structure Continuable (crypto : Crypto) (past : List Exchange) (ctx : Ctx) : Prop where
  few : ctx.Pending → ctx.assertionMatches.length ≤ maxCredentialsStored
  inUse : ∀ slot ∈ ctx.ledger.pending, (ctx.credentials slot).inUse = true
  party : ∀ slot ∈ ctx.ledger.pending, (ctx.credentials slot).rp.idHash = ctx.assertionRpIdHash
  admitted : ∀ slot ∈ ctx.ledger.pending,
    Since (AdmittedBy crypto (ctx.credentials slot)) (fun event => event.input.command ≠ .getNextAssertion) past

/-- Any other command first forgets the pending assertion and leaves the table as it is; only
then it does its own work. A command that changes more of the table than a counter leaves
nothing pending. -/
structure ClearsFirst (crypto : Crypto) (event : Exchange) : Prop where
  cleared : event.input.command ≠ .getNextAssertion → ∃ between : Ctx,
    ¬ between.Pending ∧ between.assertionMatches = [] ∧ between.credentials = event.before.credentials ∧
    (event.outcome, event.after) = dispatch crypto event.input between
  changed : (∃ slot, ¬ Recounted (event.before.credentials slot) (event.after.credentials slot)) →
    event.input.command ≠ .getNextAssertion ∧ ¬ event.after.Pending

section
variable {crypto : Crypto}

theorem Continuable.idle {past : List Exchange} {ctx : Ctx} (idle : ctx.ledger.pending = []) :
    Continuable crypto past ctx where
  few active := absurd idle (pending_iff.mp active)
  inUse slot inside := by rw [idle] at inside; cases inside
  party slot inside := by rw [idle] at inside; cases inside
  admitted slot inside := by rw [idle] at inside; cases inside

theorem idle_of_nil {ctx : Ctx} (none : ctx.assertionMatches = []) : ctx.ledger.pending = [] := by
  change ctx.assertionMatches.drop ctx.assertionIndex = []
  rw [none, List.drop_nil]

theorem Continuable.begun {past : List Exchange} {event : Exchange}
    (counted : ∀ slot, Recounted (event.before.credentials slot) (event.after.credentials slot))
    (selected : Selected crypto event.input event.before event.after) : Continuable crypto (past ++ [event]) event.after := by
  rcases selected with none | ⟨looked, found, party, few, each⟩
  · exact .idle (idle_of_nil none)
  have good {slot : CredSlot} (inside : slot ∈ event.after.ledger.pending) := each slot (List.mem_of_mem_drop inside)
  have admits {slot : CredSlot} (inside : slot ∈ event.after.ledger.pending) : looked.Admits (event.after.credentials slot) :=
    (good inside).2.congr (counted slot)
  refine ⟨fun _ => few, fun slot inside => ?_, fun slot inside => ?_, fun slot inside => ?_⟩
  · rw [counted slot]
    exact (good inside).1
  · rw [(admits inside).party, party]
  · exact since_snoc.mpr (.inl ⟨looked, found, admits inside⟩)

theorem Continuable.next {past : List Exchange} {event : Exchange} (holds : Continuable crypto past event.before)
    (continues : event.input.command = .getNextAssertion)
    (counted : ∀ slot, Recounted (event.before.credentials slot) (event.after.credentials slot))
    (left : event.after.assertionMatches = [] ∨ (event.after.assertionMatches = event.before.assertionMatches ∧
      event.before.assertionIndex ≤ event.after.assertionIndex ∧
      event.after.assertionRpIdHash = event.before.assertionRpIdHash)) :
    Continuable crypto (past ++ [event]) event.after := by
  rcases left with none | ⟨found, further, party⟩
  · exact .idle (idle_of_nil none)
  have waited {slot : CredSlot} (inside : slot ∈ event.after.ledger.pending) : slot ∈ event.before.ledger.pending := by
    change slot ∈ event.after.assertionMatches.drop event.after.assertionIndex at inside
    rw [found] at inside
    exact List.drop_subset_drop_left _ further inside
  refine ⟨fun active => ?_, fun slot inside => ?_, fun slot inside => ?_, fun slot inside => ?_⟩
  · unfold Ctx.Pending at active
    rw [found] at active ⊢
    exact holds.few (Nat.lt_of_le_of_lt further active)
  · rw [counted slot]
    exact holds.inUse slot (waited inside)
  · rw [counted slot, party]
    exact holds.party slot (waited inside)
  · obtain ⟨front, opening, back, rfl, ⟨looked, looks, admits⟩, kept⟩ := holds.admitted slot (waited inside)
    refine since_snoc.mpr (.inr ⟨⟨front, opening, back, rfl, ⟨looked, looks, admits.congr (counted slot)⟩, kept⟩, ?_⟩)
    exact fun other => other continues

theorem process_continuable {past : List Exchange} {ctx : Ctx} (holds : Continuable crypto past ctx) (request : Request) :
    Continuable crypto (past ++ [(authenticator crypto).event ctx request]) ((authenticator crypto).event ctx request).after ∧
      ClearsFirst crypto ((authenticator crypto).event ctx request) := by
  have cleared (other : request.command ≠ .getNextAssertion) : ∃ between : Ctx, ¬ between.Pending ∧
    between.assertionMatches = [] ∧
      between.credentials = ctx.credentials ∧ process crypto request ctx = dispatch crypto request between :=
    ⟨ctx.dropAssertion, Nat.lt_irrefl 0, rfl, rfl, process_other other⟩
  by_cases continues : request.command = .getNextAssertion
  · have ends := @getNextAssertion_continues crypto request.env request ctx
    rw [← process_next continues] at ends
    obtain ⟨counted, left⟩ := ends
    refine ⟨holds.next continues counted left, fun other => absurd continues other, ?_⟩
    rintro ⟨slot, changed⟩
    exact absurd (counted slot) changed
  by_cases begins : request.command = .getAssertion
  · have same : dispatch crypto request = getAssertion crypto request.env request.body request.capacity := by
      have same : Cmd.ofByte request.cmd = .getAssertion := begins
      unfold dispatch
      simp only [same]
    obtain ⟨counted, selected⟩ := ends_process continues (same ▸ getAssertion_selects begins)
    refine ⟨.begun counted selected, cleared, ?_⟩
    rintro ⟨slot, changed⟩
    exact absurd (counted slot) changed
  · have step : Step crypto request ctx _ _ := process_step crypto request ctx
    have idle := step.idle begins continues
    refine ⟨.idle idle, cleared, fun _ => ⟨continues, fun active => ?_⟩⟩
    exact absurd idle (pending_iff.mp active)

end

/-- In every run from a started authenticator, what is pending can be continued, and every
other command clears it before it touches the table. -/
theorem pending_assertions_continue (crypto : Crypto) (env : Env) (keypair : Keypair) (wrapKey : Buf 32) (disk : Option Bytes)
    (installed : Bool) (requests : List Request) :
    Continuable crypto [] ((fido2Init crypto env keypair wrapKey disk).setUvCallback installed) ∧
    Throughout ((authenticator crypto).run ((fido2Init crypto env keypair wrapKey disk).setUvCallback installed) requests)
      fun past event => Continuable crypto (past ++ [event]) event.after ∧ ClearsFirst crypto event := by
  have start : Continuable crypto [] ((fido2Init crypto env keypair wrapKey disk).setUvCallback installed) := by
    apply Continuable.idle
    apply idle_of_nil
    have kept : Proc.Keeps Ctx.assertionMatches (loadCredentials crypto env) := keeps_loadCredentials fun _ _ _ _ _ _ => rfl
    exact kept (.fresh env keypair wrapKey disk)
  refine ⟨start, Machine.run_every (fun past ctx => Continuable crypto past ctx) ?_ ?_ start requests⟩
  · intro past ctx request holds
    exact (process_continuable holds request).1
  · intro past ctx request holds
    exact process_continuable holds request

end Hiya.Fido2
