import Hiya.Proofs.QuietCommands

/-! Every command of the authenticator is one of the listed steps. Each is followed
through its branches with the ledger it would leave at hand. -/

namespace Hiya.Fido2
open Library Cbor
open Proc (Ends)

section
variable {α β : Type} {ctx : Ctx} {post : Except Status β → Ctx → Prop} {next : α → Command β}

theorem ends_value {value : Option α} {problem : Status} (failed : value = none → post (.error problem) ctx)
    (rest : ∀ found, value = some found → Ends (next found) ctx post) :
    Ends (Command.need value problem >>= next) ctx post := by
  cases value with
  | none => exact failed rfl
  | some found => exact rest found rfl

theorem ends_need {value : Option α} {problem : Status} (failed : post (.error problem) ctx)
    (rest : ∀ found, value = some found → Ends (next found) ctx post) :
    Ends (Command.need value problem >>= next) ctx post :=
  ends_value (fun _ => failed) rest

theorem ends_outcome {outcome : Except Status α} (failed : ∀ problem, outcome = .error problem → post (.error problem) ctx)
    (rest : ∀ value, outcome = .ok value → Ends (next value) ctx post) :
    Ends (Command.ofExcept outcome >>= next) ctx post := by
  cases outcome with
  | error problem => exact failed problem rfl
  | ok value => exact rest value rfl

theorem ends_ofExcept {outcome : Except Status α} (failed : ∀ problem, post (.error problem) ctx)
    (rest : ∀ value, outcome = .ok value → Ends (next value) ctx post) :
    Ends (Command.ofExcept outcome >>= next) ctx post :=
  ends_outcome (fun problem _ => failed problem) rest

theorem ends_guard {holds : Prop} [Decidable holds] {problem : Status} {next : Unit → Command β}
    (failed : ¬ holds → post (.error problem) ctx) (rest : holds → Ends (next ()) ctx post) :
    Ends (Command.check holds problem >>= next) ctx post := by
  unfold Command.check
  split
  next yes => exact rest yes
  next no => exact failed no

theorem ends_check {holds : Prop} [Decidable holds] {problem : Status} {next : Unit → Command β}
    (failed : post (.error problem) ctx) (rest : holds → Ends (next ()) ctx post) :
    Ends (Command.check holds problem >>= next) ctx post :=
  ends_guard (fun _ => failed) rest

/-- A response that does not fit leaves the context as it is, too. -/
theorem ends_sendItems {post : Except Status Reply → Ctx → Prop} {capacity : Nat} {items : List (Encode Unit)}
    (failed : encodeItems capacity items = none → post (.error .other) ctx)
    (sent : ∀ bytes, encodeItems capacity items = some bytes → post (.ok (.data bytes)) ctx) :
    Ends (sendItems capacity items) ctx post := ends_value failed fun bytes encoded => sent bytes encoded

theorem ends_trySave {crypto : Crypto} {env : Env} {yes no : Command β}
    (saved : (saveCredentials crypto env ctx).1 = .ok () → Ends yes (saveCredentials crypto env ctx).2 post)
    (failed : (saveCredentials crypto env ctx).1 ≠ .ok () → Ends no (saveCredentials crypto env ctx).2 post) :
    Ends (trySave crypto env >>= fun saved => if saved = true then yes else no) ctx post := by
  apply Ends.bind
  have known : trySave crypto env ctx =
      (.ok (decide ((saveCredentials crypto env ctx).1 = .ok ())), (saveCredentials crypto env ctx).2) := by
    unfold trySave Proc.withDefault
    rw [Proc.bind_apply]
    rcases saveCredentials crypto env ctx with ⟨problem | done, reached⟩
    · rfl
    · rfl
  unfold Ends at saved failed ⊢
  rw [known]
  by_cases done : (saveCredentials crypto env ctx).1 = .ok ()
  · simp only [decide_eq_true done, if_true]
    exact saved done
  · simp only [decide_eq_false done, Bool.false_eq_true, if_false]
    exact failed done

theorem ends_save {crypto : Crypto} {env : Env} {reply : β}
    (rest : ∀ saved : Ctx, saved.ledger = ctx.ledger → post (.ok reply) saved) :
    Ends ((saveCredentials crypto env).ignore >>= fun _ => pure reply) ctx post :=
  rest _ (still_saveCredentials ctx)

/-- Verifying the user changes nothing, and looks only at what a pending assertion
does not touch. -/
theorem performUv_apply {env : Env} (param : Option (Blob 32)) (check : PinState → Blob 32 → Except Status Unit)
    (ctx : Ctx) : performUv env param check ctx.dropAssertion = ((performUv env param check ctx).1, ctx.dropAssertion) := by
  simp only [performUv, Proc.bind_apply, Proc.get_apply]
  cases param with
  | none =>
    change (if ctx.verifyUser then _ else _ : Command Bool) _ = (((if ctx.verifyUser then _ else _ : Command Bool) ctx).1, _)
    split
    · split
      · rfl
      · rfl
    · rfl
  | some param =>
    change (Command.ofExcept (check ctx.pin param) >>= _) _ = (((Command.ofExcept (check ctx.pin param) >>= _) ctx).1, _)
    cases check ctx.pin param with
    | error problem => rfl
    | ok value => rfl

theorem ends_uv {env : Env} {param : Option (Blob 32)} {check : PinState → Blob 32 → Except Status Unit}
    {next : Bool → Command β}
    (failed : ∀ problem, (performUv env param check ctx).1 = .error problem → post (.error problem) ctx.dropAssertion)
    (rest : ∀ uv, (performUv env param check ctx).1 = .ok uv → Ends (next uv) ctx.dropAssertion post) :
    Ends (performUv env param check >>= next) ctx.dropAssertion post := by
  apply Ends.bind
  unfold Ends
  rw [performUv_apply]
  cases outcome : (performUv env param check ctx).1 with
  | error problem => exact failed problem outcome
  | ok uv => exact rest uv outcome

theorem ends_performUv {env : Env} {param : Option (Blob 32)} {check : PinState → Blob 32 → Except Status Unit}
    {next : Bool → Command β} (failed : ∀ problem, post (.error problem) ctx.dropAssertion)
    (rest : ∀ uv, (performUv env param check ctx).1 = .ok uv → Ends (next uv) ctx.dropAssertion post) :
    Ends (performUv env param check >>= next) ctx.dropAssertion post :=
  ends_uv (fun problem _ => failed problem) rest

end

theorem putCounter_putCounter (holder : Option CredSlot) (first second : UInt32) (ctx : Ctx) :
    (ctx.putCounter holder first).putCounter holder second = ctx.putCounter holder second := by
  cases holder with
  | none => rfl
  | some slot =>
    simp only [Ctx.putCounter, Ctx.putCredential, Function.update_self, Function.update_idem]

section
variable {crypto : Crypto} {request : Request} {ctx : Ctx}

theorem buildAssertionResponse_counts {env : Env} (holder : Option CredSlot) (privkey : Buf 32) (id : CredentialId)
    (rpIdHash clientDataHash : Buf 32) (flags : UInt8) (total : Nat) (includeUser : Bool) (capacity : Nat) (ctx : Ctx) :
    Ends (buildAssertionResponse crypto env holder privkey id rpIdHash clientDataHash flags total includeUser capacity)
      ctx fun outcome reached => ∃ after, Counted id (ctx.counter holder) outcome after ∧
      reached = ctx.putCounter holder after := by
  apply Ends.get
  apply Ends.andThen
  have spent (problem : Status) : ∃ after, Counted id (ctx.counter holder) (.error problem) after ∧
      ctx.putCounter holder (ctx.counter holder + 1) = ctx.putCounter holder after := ⟨_, .spent problem, rfl⟩
  refine ends_need (spent _) fun authData _ => ends_need (spent _) fun signature _ => ends_need (spent _) fun der _ => ?_
  dsimp only
  split
  · exact ⟨_, .asserted _ _, rfl⟩
  · exact ⟨_, .returned _, putCounter_putCounter holder _ _ ctx⟩

theorem assertSlot_counts {env : Env} (slot : CredSlot) (rpIdHash clientDataHash : Buf 32) (flags : UInt8) (total : Nat)
    (includeUser : Bool) (capacity : Nat) (ctx : Ctx) :
    Ends (assertSlot crypto env slot rpIdHash clientDataHash flags total includeUser capacity) ctx
      fun outcome reached => ∃ signCount,
      Counted (ctx.credentials slot).credId (ctx.credentials slot).signCount outcome signCount ∧
        reached.ledger = ctx.ledger.put slot { ctx.ledger.entries slot with signCount } := by
  apply Ends.get
  apply Ends.bind
  refine (buildAssertionResponse_counts (some slot) _ _ _ _ _ _ _ _ ctx).mono ?_
  rintro outcome reached ⟨after, counted, rfl⟩
  have left : (ctx.putCounter (some slot) after).ledger =
    ctx.ledger.put slot { ctx.ledger.entries slot with signCount := after } :=
    ledger_putCredential slot _ ctx
  cases outcome with
  | error problem => exact ⟨after, counted, left⟩
  | ok reply => exact ends_save fun saved same => ⟨after, counted, same.trans left⟩

/-! What the two assertion commands do is to count, to note what is pending, and to save. -/

section
variable {rel : Ctx → Ctx → Prop} [IsPreorder Ctx rel] {env : Env}
  (counts : ∀ holder count ctx, rel ctx (ctx.putCounter holder count))
  (notes : ∀ ctx assertionMatches assertionIndex assertionClientDataHash assertionRpIdHash assertionFlags assertionTimestamp,
    rel ctx { ctx with assertionMatches, assertionIndex, assertionClientDataHash, assertionRpIdHash, assertionFlags, assertionTimestamp })
  (saves : ∀ env, Proc.Moves rel (saveCredentials crypto env))

include counts in
omit [IsPreorder Ctx rel] in
theorem moves_buildAssertionResponse (holder : Option CredSlot) (privkey : Buf 32) (id : CredentialId)
    (rpIdHash clientDataHash : Buf 32) (flags : UInt8) (total : Nat) (includeUser : Bool) (capacity : Nat) :
    Proc.Moves rel (buildAssertionResponse crypto env holder privkey id rpIdHash clientDataHash flags total includeUser capacity) := by
  intro ctx
  obtain ⟨after, -, reached⟩ := buildAssertionResponse_counts holder privkey id rpIdHash clientDataHash flags total includeUser
    capacity ctx
  rw [reached]
  exact counts holder after ctx

include counts saves in
theorem moves_assertSlot (slot : CredSlot) (rpIdHash clientDataHash : Buf 32) (flags : UInt8) (total : Nat)
    (includeUser : Bool) (capacity : Nat) :
    Proc.Moves rel (assertSlot crypto env slot rpIdHash clientDataHash flags total includeUser capacity) :=
  .bind .get fun _ => .bind (moves_buildAssertionResponse counts _ _ _ _ _ _ _ _ _) fun _ =>
    .bind (.ignore (saves env)) fun _ => .pure _

include counts notes saves

theorem moves_getAssertion (body : Bytes) (capacity : Nat) : Proc.Moves rel (getAssertion crypto env body capacity) := by
  refine .bind (moves_ofExcept _) fun parsed => .bind (moves_performUv _ _) fun uv => ?_
  refine .bind (.modify fun ctx => notes ctx _ _ _ _ _ _) fun _ => .bind .get fun ctx => ?_
  split
  · exact .bind (moves_buildAssertionResponse counts _ _ _ _ _ _ _ _ _) fun _ => .bind (.ignore (saves env)) fun _ => .pure _
  · exact .fail _
  · exact .bind (.modify fun ctx => notes ctx _ _ _ _ _ _) fun _ => moves_assertSlot counts saves _ _ _ _ _ _ _

theorem moves_getNextAssertion (capacity : Nat) : Proc.Moves rel (getNextAssertion crypto env capacity) := by
  refine .bind .get fun ctx => .ite (.bind (.modify fun ctx => notes ctx _ _ _ _ _ _) fun _ => .fail _) ?_
  split
  · exact .fail _
  · exact .bind (.modify fun ctx => notes ctx _ _ _ _ _ _) fun _ => moves_assertSlot counts saves _ _ _ _ _ _ _

end

/-- A command that fails before it has done anything. -/
theorem refused (problem : Status) : Step crypto request ctx (.error problem) ctx.dropAssertion.ledger :=
  .quiet (fun _ failed => nomatch failed) (.inl rfl)

/-- The walk ends at the first entry that unwraps, and otherwise collects slots that
each entry allows. -/
theorem selectAllowed_cases {rpIdHash : Buf 32} {uv : Bool} {good : CredSlot → Prop} {ids : List CredentialId}
    (allowed : ∀ id ∈ ids, ∀ slot ∈ ctx.allowedSlots rpIdHash uv id, good slot) :
    ∀ found : List CredSlot, (∀ slot ∈ found, good slot) →
      (∃ id key, ctx.selectAllowed crypto rpIdHash uv ids found = .unwrapped id key ∧
        ids.find? (fun id => (ctx.unwraps crypto rpIdHash id).isSome) = some id) ∨
      (∃ slots, ctx.selectAllowed crypto rpIdHash uv ids found = .table slots ∧
        ids.find? (fun id => (ctx.unwraps crypto rpIdHash id).isSome) = none ∧ ∀ slot ∈ slots, good slot) := by
  induction ids with
  | nil => exact fun found held => .inr ⟨found, rfl, rfl, held⟩
  | cons id rest ih =>
    intro found held
    unfold Ctx.selectAllowed
    cases opened : ctx.unwraps crypto rpIdHash id with
    | some key => exact .inl ⟨id, key, by simp, by simp [opened]⟩
    | none =>
      rw [List.find?_cons_of_neg (by simp [opened])]
      apply ih (fun id inside => allowed id (List.mem_cons_of_mem _ inside))
      intro slot inside
      rcases List.mem_append.mp (List.mem_of_mem_take inside) with inside | inside
      · exact held slot inside
      · exact allowed id List.mem_cons_self slot inside

theorem eligible_of_allowed {found : Lookup} (looked : lookup crypto request ctx = some found) {id : CredentialId}
    (listed : id ∈ found.allowList.ids) {slot : CredSlot}
    (inside : slot ∈ ctx.allowedSlots found.params.rpIdHash found.uv id) : Eligible crypto request ctx slot := by
  simp only [Ctx.allowedSlots, List.mem_filter, Bool.and_eq_true, decide_eq_true_eq, Bool.not_eq_true',
    Bool.and_eq_false_iff, decide_eq_false_iff_not] at inside
  obtain ⟨-, ⟨⟨inUse, -⟩, same⟩, open?⟩ := inside
  refine ⟨inUse, fun high => ⟨found, looked, ?_⟩, fun _ => .inr ⟨found, looked, ?_⟩⟩
  · rcases open? with low | verified
    · exact absurd high low
    · simpa using verified
  · change (ctx.credentials slot).credId ∈ _
    rwa [same]

theorem eligible_of_discoverable {found : Lookup} (looked : lookup crypto request ctx = some found) {slot : CredSlot}
    (inside : slot ∈ ctx.discoverableSlots found.params.rpIdHash found.uv) : Eligible crypto request ctx slot := by
  simp only [Ctx.discoverableSlots, List.mem_filter, Bool.and_eq_true, decide_eq_true_eq, Bool.not_eq_true',
    Bool.and_eq_false_iff, decide_eq_false_iff_not] at inside
  obtain ⟨-, ⟨⟨inUse, -⟩, low⟩, open?⟩ := inside
  refine ⟨inUse, fun high => absurd high low, fun high => .inl ⟨found, looked, ?_⟩⟩
  rcases open? with lower | verified
  · exact absurd high lower
  · simpa using verified

theorem select_cases {found : Lookup} (looked : lookup crypto request ctx = some found) :
    (∃ id key, ctx.select crypto found.params.rpIdHash found.uv found.allowList = .unwrapped id key ∧
      unwrapTarget crypto request ctx = some id) ∨
    (∃ slots, ctx.select crypto found.params.rpIdHash found.uv found.allowList = .table slots ∧
      unwrapTarget crypto request ctx = none ∧ ∀ slot ∈ slots, Eligible crypto request ctx slot) := by
  unfold Ctx.select unwrapTarget
  rw [looked, Option.bind_some]
  split
  next some? =>
    exact selectAllowed_cases (fun id listed slot => eligible_of_allowed looked listed) [] (by simp)
  next none? =>
    have empty : found.allowList.ids = [] := List.eq_nil_of_length_eq_zero (by omega)
    exact .inr ⟨_, rfl, by rw [empty]; rfl, fun slot => eligible_of_discoverable looked⟩

/-- The lookup sees the table and the wrap key only. -/
theorem select_congr {first second : Ctx} (table : first.credentials = second.credentials)
    (key : first.wrapKey = second.wrapKey) (rpIdHash : Buf 32) (uv : Bool) (allowList : IdList) :
    first.select crypto rpIdHash uv allowList = second.select crypto rpIdHash uv allowList := by
  have walk (ids : List CredentialId) : ∀ found,
      first.selectAllowed crypto rpIdHash uv ids found = second.selectAllowed crypto rpIdHash uv ids found := by
    induction ids with
    | nil => exact fun _ => rfl
    | cons id rest ih =>
      intro found
      simp only [Ctx.selectAllowed, Ctx.allowedSlots, Ctx.unwraps, table, key, ih]
  simp only [Ctx.select, Ctx.discoverableSlots, walk, table]

theorem select_beginAssertion {env : Env} (params : GetAssertionParams) (uv : Bool) (rpIdHash : Buf 32) (allowList : IdList) :
    (ctx.dropAssertion.beginAssertion env params uv).select crypto rpIdHash uv allowList =
    ctx.select crypto rpIdHash uv allowList := by
  apply select_congr
  · rfl
  · rfl

theorem getAssertion_step (command : request.command = .getAssertion) :
    Ends (getAssertion crypto request.env request.body request.capacity) ctx.dropAssertion
      fun outcome reached => Step crypto request ctx outcome reached.ledger := by
  refine ends_ofExcept refused ?_
  rintro ⟨params, allowList⟩ parsed
  refine ends_performUv refused fun uv verified => ?_
  have looked : lookup crypto request ctx = some { params, allowList, uv } := by
    unfold lookup getAssertionUv
    simp only [command, parsed, verified, ne_eq, not_true_eq_false, if_false]
  apply Ends.andThen
  apply Ends.get
  rw [select_beginAssertion]
  rcases select_cases looked with ⟨id, key, chosen, target⟩ | ⟨slots, chosen, target, eligible⟩ <;> rw [chosen]
  · apply Ends.bind
    refine (buildAssertionResponse_counts none key id _ _ _ _ _ _ _).mono ?_
    rintro outcome reached ⟨after, counted, rfl⟩
    cases outcome with
    | error problem => exact .unwraps target counted
    | ok reply => exact ends_save fun saved same => same ▸ .unwraps target counted
  · cases slots with
    | nil => exact refused _
    | cons slot rest =>
      apply Ends.andThen
      refine (assertSlot_counts slot _ _ _ _ _ _ _).mono ?_
      rintro outcome reached ⟨signCount, counted, left⟩
      rw [left]
      exact .asserts (.fresh (by rw [looked]; rfl) target eligible) counted

theorem getNextAssertion_step (command : request.command = .getNextAssertion) :
    Ends (getNextAssertion crypto request.env request.capacity) ctx
      fun outcome reached => Step crypto request ctx outcome reached.ledger := by
  apply Ends.get
  apply Ends.ite
  · intro late
    exact .quiet (fun _ failed => nomatch failed) (.inl rfl)
  · intro timely
    split
    next missing => exact .quiet (fun _ failed => nomatch failed) (.inr ⟨command, rfl⟩)
    next slot found =>
      apply Ends.andThen
      refine (assertSlot_counts slot _ _ _ _ _ _ _).mono ?_
      rintro outcome reached ⟨signCount, counted, left⟩
      rw [left]
      have pending : ctx.ledger.pending = slot :: ctx.assertionMatches.drop (ctx.assertionIndex + 1) :=
        List.drop_eq_getElem?_toList_append.trans (by rw [found]; rfl)
      exact .asserts (.next command pending) counted

theorem storeResident_places {env : Env} (cred : Credential) (ctx : Ctx) :
    Ends (storeResident crypto env cred) ctx fun _ reached =>
      ∃ entries, Placed cred.credId cred.signCount ctx.ledger.entries entries ∧
        reached.ledger = { ctx.ledger with entries } := by
  apply Ends.get
  refine ends_need ⟨_, .nowhere, rfl⟩ fun slot _ => ?_
  apply Ends.andThen
  have stored (reached : Ctx) (same : reached.ledger = (ctx.putCredential slot cred).ledger) :
      ∃ entries, Placed cred.credId cred.signCount ctx.ledger.entries entries ∧
        reached.ledger = { ctx.ledger with entries } :=
    ⟨_, .stored slot cred.inUse cred.credProtect, same.trans (ledger_putCredential slot cred ctx)⟩
  refine still_trySave.ends (fun _ => stored) fun saved reached same => .ite (fun _ => stored reached same) fun _ => ?_
  -- the slot is freed whatever it held before
  have freed : (reached.setInUse slot false).ledger =
      reached.ledger.put slot { reached.ledger.entries slot with inUse := false } := ledger_putCredential slot _ reached
  refine ⟨_, .stored slot false cred.credProtect, freed.trans ?_⟩
  rw [show reached.ledger = ctx.ledger.put slot cred.entry from same.trans (ledger_putCredential slot cred ctx)]
  simp only [Ledger.put, Function.update_self, Function.update_idem]
  rfl

theorem register_step {params : MakeCredParams} {uv : Bool} {keypair : Keypair} {id : CredentialId}
    {hmacSecret : Option (Buf 32)} (drawn : drawnId crypto request ctx = some id) :
    Ends (register crypto request.env params uv keypair id hmacSecret request.capacity) ctx.dropAssertion
      fun outcome reached => Step crypto request ctx outcome reached.ledger := by
  apply Ends.get
  apply Ends.andThen
  have counted (problem : Status) : Step crypto request ctx (.error problem)
      { ctx.dropAssertion.ledger with global := ctx.ledger.global + 1 } := .registers drawn .nowhere (.failed problem)
  refine ends_need (counted _) fun authData _ => ends_need (counted _) fun signature _ => ?_
  have sends (reached : Ctx) (entries : CredSlot → Entry)
      (placed : Placed id (ctx.ledger.global + 1) ctx.ledger.entries entries)
      (left : reached.ledger = { entries, global := ctx.ledger.global + 1, pending := [] }) :
      Ends (sendRegistration id (ctx.ledger.global + 1) authData signature request.capacity) reached
        fun outcome reached => Step crypto request ctx outcome reached.ledger := by
    have failed (problem : Status) : Step crypto request ctx (.error problem) reached.ledger :=
      left ▸ .registers drawn placed (.failed problem)
    refine ends_need (failed _) fun der _ => ends_need (failed _) fun bytes _ => ?_
    have issued : Step crypto request ctx (.ok (.registered id (ctx.ledger.global + 1) bytes)) reached.ledger :=
      left ▸ .registers drawn placed (.issued bytes)
    exact issued
  apply Ends.ite
  · intro resident
    apply Ends.bind
    refine (storeResident_places _ _).mono ?_
    rintro outcome reached ⟨entries, placed, left⟩
    cases outcome with
    | error problem => exact left ▸ .registers drawn placed (.failed problem)
    | ok _ => exact sends reached entries placed left
  · intro _
    exact sends _ _ .nowhere rfl

theorem makeCredential_step (command : request.command = .makeCredential) :
    Ends (makeCredential crypto request.env request.body request.capacity) ctx.dropAssertion
      fun outcome reached => Step crypto request ctx outcome reached.ledger := by
  refine ends_ofExcept refused ?_
  rintro ⟨params, excludeList⟩ parsed
  apply Ends.get
  apply Ends.ite
  · exact fun _ => refused _
  intro included
  refine ends_performUv refused fun uv verified => ?_
  refine ends_need (refused _) ?_
  rintro ⟨keypair, credId⟩ drew
  have drawn : drawnId crypto request ctx = some credId := by
    unfold drawnId
    simp only [command, parsed, ne_eq, not_true_eq_false, if_false]
    exact congrArg (Option.map Prod.snd) drew
  apply Ends.bind
  apply Ends.ite
  · intro wanted
    exact ends_need (refused _) fun secret _ => register_step drawn
  · intro _
    exact register_step drawn

/-- Only what a command leaves in the ledger matters, so it may also start from a
context that differs elsewhere. -/
theorem Quiet.step {body : Command Reply} (quiet : Quiet body) (lasting : request.command ≠ .reset)
    (harmless : deleteTarget request = none) {start : Ctx} (same : start.ledger = ctx.dropAssertion.ledger) :
    Ends body start fun outcome reached => Step crypto request ctx outcome reached.ledger := by
  change Step crypto request ctx (body start).1 (body start).2.ledger
  rw [quiet.keeps start, same]
  refine .quiet (fun reply done => ⟨?_, lasting, harmless⟩) (.inl rfl)
  exact quiet.replies start reply _ (Prod.ext done rfl)

theorem findCredential_some {start : Ctx} {id : CredentialId} {slot : CredSlot}
    (found : start.findCredential id = some slot) :
    (start.ledger.entries slot).inUse = true ∧ (start.ledger.entries slot).credId = id := by
  have held := List.find?_some found
  rwa [Bool.and_eq_true, decide_eq_true_eq] at held

theorem deleteCredential_step {params : CredMgmtParams} {start : Ctx}
    (target : deleteTarget request = params.credId) (same : start.ledger = ctx.dropAssertion.ledger) :
    Ends (deleteCredential crypto request.env params) start
      fun outcome reached => Step crypto request ctx outcome reached.ledger := by
  have failed (problem : Status) : Step crypto request ctx (.error problem) start.ledger := same ▸ refused problem
  refine ends_need (failed _) fun id named => ?_
  apply Ends.get
  refine ends_need (failed _) fun slot found => ?_
  obtain ⟨inUse, named?⟩ := findCredential_some found
  rw [same] at inUse named?
  apply Ends.andThen
  refine ends_save fun saved kept => ?_
  have left : saved.ledger = start.ledger.put slot Credential.zero.entry := kept.trans (ledger_putCredential slot _ start)
  rw [left, same]
  exact .deletes (target.trans named) inUse named?

/-- Replacing the user of a credential is not seen in the ledger. -/
theorem quiet_updateUserInformation {params : CredMgmtParams} {env : Env} :
    Quiet (updateUserInformation crypto env params) := by
  have ends (start : Ctx) : Ends (updateUserInformation crypto env params) start fun outcome reached =>
      reached.ledger = start.ledger ∧ ∀ reply, outcome = .ok reply → ∃ bytes, reply = .data bytes := by
    have failed (problem : Status) : start.ledger = start.ledger ∧
        ∀ reply : Reply, Except.error problem = .ok reply → ∃ bytes, reply = .data bytes :=
      ⟨rfl, fun _ failed => nomatch failed⟩
    refine ends_need (failed _) fun id _ => ?_
    apply Ends.get
    refine ends_need (failed _) fun slot _ => ends_check (failed _) fun _ => ?_
    apply Ends.andThen
    refine ends_save fun saved kept => ⟨kept.trans ?_, fun reply done => ⟨[], (Except.ok.inj done).symm⟩⟩
    exact (ledger_putCredential slot _ start).trans (start.ledger.put_same slot)
  exact ⟨fun start => (ends start).1, fun start reply last done => (ends start).2 reply (by rw [done])⟩

theorem credMgmtCommand_step {params : CredMgmtParams} (command : request.command = .credentialManagement)
    (parsed : parseCredMgmtParams request.body = .ok params) {start : Ctx}
    (same : start.ledger = ctx.dropAssertion.ledger) :
    Ends (credMgmtCommand crypto request.env params request.capacity) start
      fun outcome reached => Step crypto request ctx outcome reached.ledger := by
  have lasting : request.command ≠ .reset := by simp [command]
  have target : deleteTarget request = if params.subCommand = 0x06 then params.credId else none := by
    simp only [deleteTarget, command, parsed, ne_eq, not_true_eq_false, if_false]
  by_cases deletes : params.subCommand = 0x06
  · rw [if_pos deletes] at target
    apply Ends.get
    rw [deletes]
    exact deleteCredential_step target same
  · rw [if_neg deletes] at target
    have quiet : Quiet (credMgmtCommand crypto request.env params request.capacity) := by
      refine .get fun _ => ?_
      split
      · exact quiet_sendItems _ _
      · exact quiet_enumerateRpsBegin _
      · exact quiet_enumerateRpsNext _
      · exact quiet_enumerateCredsBegin params _
      · exact quiet_enumerateCredsNext _
      next six => exact absurd (UInt32.toNat_inj.mp six) deletes
      · exact quiet_updateUserInformation
      · exact .fail _
    exact quiet.step lasting target same

theorem credentialManagement_step (command : request.command = .credentialManagement) :
    Ends (credentialManagement crypto request.env request.body request.capacity) ctx.dropAssertion
      fun outcome reached => Step crypto request ctx outcome reached.ledger := by
  refine ends_ofExcept refused fun params parsed => ?_
  apply Ends.ite
  · intro _
    exact credMgmtCommand_step command parsed rfl
  · intro _
    have checks : Still (authorize crypto request.env permCredentialMgmt params.pinUvAuthParam params.pinProtocol
      (List.replicate 32 0xFF ++ [params.subCommand.toUInt8]) 16) := keeps_authorize _ _ _ _ _
    refine checks.ends (fun problem reached same => same ▸ refused problem) fun _ reached same => ?_
    exact credMgmtCommand_step command parsed same

theorem reset_step (command : request.command = .reset) :
    Ends (reset crypto request.env) ctx.dropAssertion
      fun outcome reached => Step crypto request ctx outcome reached.ledger := by
  apply Ends.get
  refine ends_check (refused _) fun early => ends_check (refused _) fun present => ?_
  apply Ends.andThen
  refine ends_save fun saved kept => ?_
  rw [kept]
  exact .clears command

/-- Any command but GetNextAssertion starts without a pending assertion. -/
theorem ends_process {post : Except Status Reply → Ctx → Prop} (other : request.command ≠ .getNextAssertion)
    (rest : Ends (dispatch crypto request) ctx.dropAssertion post) : Ends (process crypto request) ctx post := by
  unfold process
  rw [if_pos (show Cmd.ofByte request.cmd ≠ .getNextAssertion from other)]
  exact Ends.andThen rest

theorem process_step (crypto : Crypto) (request : Request) (ctx : Ctx) :
    Ends (process crypto request) ctx fun outcome reached => Step crypto request ctx outcome reached.ledger := by
  by_cases continues : Cmd.ofByte request.cmd = .getNextAssertion
  · unfold process dispatch
    simp only [continues, ne_eq, not_true_eq_false, if_false]
    exact getNextAssertion_step continues
  have quiet {body : Command Reply} (silent : Quiet body) (lasting : request.command ≠ .reset)
      (other : request.command ≠ .credentialManagement) :
      Ends body ctx.dropAssertion fun outcome reached => Step crypto request ctx outcome reached.ledger :=
    silent.step lasting (if_pos other) rfl
  apply ends_process continues
  unfold dispatch
  cases command : Cmd.ofByte request.cmd with
  | makeCredential => exact makeCredential_step command
  | getAssertion => exact getAssertion_step command
  | getInfo => exact quiet (quiet_getInfo _) (by simp [Request.command, command]) (by simp [Request.command, command])
  | clientPin => exact quiet (quiet_clientPin _ _) (by simp [Request.command, command]) (by simp [Request.command, command])
  | reset => exact reset_step command
  | getNextAssertion => exact absurd command continues
  | bioEnrollment =>
    exact quiet (quiet_bioEnrollment _ _) (by simp [Request.command, command]) (by simp [Request.command, command])
  | credentialManagement => exact credentialManagement_step command
  | selection => exact quiet quiet_selection (by simp [Request.command, command]) (by simp [Request.command, command])
  | unknown => exact refused _

end

end Hiya.Fido2
