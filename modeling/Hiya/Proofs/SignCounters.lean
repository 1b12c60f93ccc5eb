import Hiya.Proofs.CredProtect

/-! Signature counters. A credential in the table counts by itself and an unwrapped
id counts with everything else, so the counters seen for one id rise as long as it is
not looked up both ways, and as long as a reset does not start the global counter
anew under it. -/

namespace Hiya.Fido2
open Library

def emission : Except Status Reply → Option (CredentialId × UInt32)
  | .ok (.registered id count _) => some (id, count)
  | .ok (.asserted id _ count _) => some (id, count)
  | _ => none

def Emits (id : CredentialId) (count : UInt32) (event : Exchange) : Prop := emission event.outcome = some (id, count)

/-- The counter of an id is above all that were emitted for it before. -/
def Rises (past : List Exchange) (event : Exchange) : Prop :=
  ∀ id count, Emits id count event → ∀ earlier ∈ past, ∀ old, Emits id old earlier → old < count

def FromTable (crypto : Crypto) (id : CredentialId) (event : Exchange) : Prop :=
  Asserts id event ∧ unwrapTarget crypto event.input event.before = none

/-- No counter goes down, but that a reset clears the global one. -/
structure NoWrap (event : Exchange) : Prop where
  global : ¬ Resets event → event.before.ledger.global ≤ event.after.ledger.global
  table : ∀ slot, (event.before.ledger.entries slot).inUse = true →
    SameCredential (event.before.ledger.entries slot) (event.after.ledger.entries slot) →
    (event.before.ledger.entries slot).signCount ≤ (event.after.ledger.entries slot).signCount

/-- What keeps the two kinds of counters apart. -/
structure CountsApart (crypto : Crypto) (past : List Exchange) (event : Exchange) : Prop where
  /-- A new id is new. -/
  fresh : ∀ id, drawnId crypto event.input event.before = some id →
    Unstored id event.before.ledger ∧ ∀ earlier ∈ past, ∀ count, ¬ Emits id count earlier
  /-- An id that unwraps is not, and was not, counted by a slot of the table. -/
  apart : ∀ id, unwrapTarget crypto event.input event.before = some id →
    Unstored id event.before.ledger ∧ ∀ earlier ∈ past, ¬ FromTable crypto id earlier
  /-- Nor was it seen before the global counter was cleared. -/
  current : ∀ id, unwrapTarget crypto event.input event.before = some id →
    ¬ Followed (fun earlier => ∃ count, Emits id count earlier) Resets past

structure CounterInvariant (crypto : Crypto) (past : List Exchange) (ctx : Ctx) : Prop where
  distinct : Distinct ctx.ledger
  waiting : ∀ slot ∈ ctx.ledger.pending, (ctx.ledger.entries slot).inUse = true
  table : ∀ earlier ∈ past, ∀ id count, Emits id count earlier → ∀ slot, (ctx.ledger.entries slot).inUse = true →
    (ctx.ledger.entries slot).credId = id → count ≤ (ctx.ledger.entries slot).signCount
  global : ∀ id count, Since (fun earlier => Emits id count earlier ∧ ¬ FromTable crypto id earlier) Resets past →
    count ≤ ctx.ledger.global

theorem lt_succ_of_le {old count : UInt32} (below : old ≤ count) (rises : count ≤ count + 1) : old < count + 1 := by
  have bounded := count.toNat_lt
  simp only [UInt32.le_iff_toNat_le, UInt32.lt_iff_toNat_lt, UInt32.toNat_add, UInt32.reduceToNat] at below rises ⊢
  omega

/-- The three ways authenticator data comes about. -/
inductive Emitted (crypto : Crypto) (event : Exchange) (id : CredentialId) (count : UInt32) : Prop
  | registered (drawn : drawnId crypto event.input event.before = some id) (counted : event.after.ledger.global = count)
      (placed : Placed id count event.before.ledger.entries event.after.ledger.entries)
  | unwrapped (target : unwrapTarget crypto event.input event.before = some id)
      (next : count = event.before.ledger.global + 1) (counted : event.after.ledger.global = count)
  | table (slot : CredSlot) (from? : FromTable crypto id event) (inUse : (event.before.ledger.entries slot).inUse = true)
      (holds : (event.before.ledger.entries slot).credId = id)
      (next : count = (event.before.ledger.entries slot).signCount + 1)
      (same : SameCredential (event.before.ledger.entries slot) (event.after.ledger.entries slot))
      (counted : (event.after.ledger.entries slot).signCount = count)

section
variable {crypto : Crypto} {past : List Exchange} {event : Exchange} {id : CredentialId} {count : UInt32}

theorem emitted_cases (step : Step crypto event.input event.before event.outcome event.after.ledger)
    (waiting : ∀ slot ∈ event.before.ledger.pending, (event.before.ledger.entries slot).inUse = true)
    (emits : Emits id count event) : Emitted crypto event id count := by
  obtain ⟨before, input, outcome, after⟩ := event
  rcases outcome with problem | ⟨named, counted, bytes⟩ | ⟨named, flags, counted, bytes⟩ | bytes <;> cases emits
  · obtain ⟨drawn, global, placed⟩ := step.issued
    exact .registered drawn global placed
  · rcases step.asserted with ⟨target, next, counted⟩ | ⟨slot, sealed, admitted, holds, next, same, counted⟩
    · exact .unwrapped target next counted
    · refine .table slot ⟨rfl, sealed⟩ ?_ holds next same counted
      rcases admitted with eligible | ⟨-, pending⟩
      · exact eligible.inUse
      · exact waiting slot pending

/-- A registration leaves its counter with the id it has stored. -/
theorem Placed.counts {before after : CredSlot → Entry} (placed : Placed id count before after)
    (unstored : ∀ slot, (before slot).inUse = true → (before slot).credId ≠ id) {slot : CredSlot}
    (inUse : (after slot).inUse = true) (holds : (after slot).credId = id) : (after slot).signCount = count := by
  cases placed with
  | nowhere => exact absurd holds (unstored slot inUse)
  | stored place used level =>
    by_cases here : slot = place
    · rw [here, Function.update_self]
    · rw [Function.update_of_ne here] at inUse holds
      exact absurd holds (unstored slot inUse)

theorem CounterInvariant.makes (holds : CounterInvariant crypto past event.before)
    (step : Step crypto event.input event.before event.outcome event.after.ledger)
    (apart : CountsApart crypto past event) (steady : NoWrap event) : Rises past event := by
  intro id count emits earlier inside old emitted
  cases emitted_cases step holds.waiting emits with
  | registered drawn counted placed => exact absurd emitted ((apart.fresh id drawn).2 earlier inside old)
  | unwrapped target next counted =>
    have lasting : ¬ Resets event := by
      rintro ⟨resets, -⟩
      rw [command_of_target target] at resets
      cases resets
    have below : old ≤ event.before.ledger.global := by
      apply holds.global id old
      obtain ⟨front, back, rfl⟩ := List.append_of_mem inside
      refine ⟨front, earlier, back, rfl, ⟨emitted, (apart.apart id target).2 earlier inside⟩, ?_⟩
      intro later behind resets
      obtain ⟨middle, rest, rfl⟩ := List.append_of_mem behind
      refine apart.current id target ⟨front ++ earlier :: middle, later, rest,
        by simp, ⟨earlier, by simp, old, emitted⟩, resets⟩
    have rises := steady.global lasting
    rw [counted, next] at rises
    exact next ▸ lt_succ_of_le below rises
  | table slot from? inUse named next same counted =>
    have rises := steady.table slot inUse same
    rw [counted, next] at rises
    exact next ▸ lt_succ_of_le (holds.table earlier inside id old emitted slot inUse named) rises

/-- Every counter emitted so far, this one included, is within the slot that holds its id. -/
theorem CounterInvariant.keeps_table (holds : CounterInvariant crypto past event.before)
    (step : Step crypto event.input event.before event.outcome event.after.ledger)
    (apart : CountsApart crypto past event) (steady : NoWrap event) {earlier : Exchange} (inside : earlier ∈ past ++ [event])
    (emitted : Emits id count earlier) {slot : CredSlot} (inUse : (event.after.ledger.entries slot).inUse = true)
    (named : (event.after.ledger.entries slot).credId = id) : count ≤ (event.after.ledger.entries slot).signCount := by
  obtain ⟨place, origin⟩ := step.origin
  rcases List.mem_append.mp inside with before | now
  · rcases origin slot inUse with same | ⟨-, drawn⟩
    · have used : (event.before.ledger.entries slot).inUse = true := same.inUse ▸ inUse
      exact UInt32.le_trans (holds.table earlier before id count emitted slot used (same.credId ▸ named))
        (steady.table slot used same)
    · rw [named] at drawn
      exact absurd emitted ((apart.fresh id drawn).2 earlier before count)
  · obtain rfl := List.mem_singleton.mp now
    cases emitted_cases step holds.waiting emitted with
    | registered drawn counted placed =>
      rw [placed.counts (apart.fresh id drawn).1 inUse named]
      exact UInt32.le_refl count
    | unwrapped target next counted =>
      rcases origin slot inUse with same | ⟨-, drawn⟩
      · exact absurd (same.credId ▸ named) ((apart.apart id target).1 slot (same.inUse ▸ inUse))
      · have command := command_of_drawn drawn
        rw [command_of_target target] at command
        cases command
    | table chosen from? used holdsId next same counted =>
      rcases origin slot inUse with kept | ⟨-, drawn⟩
      · obtain rfl : slot = chosen :=
          holds.distinct id slot chosen (kept.inUse ▸ inUse) (kept.credId ▸ named) used holdsId
        rw [counted]
        exact UInt32.le_refl count
      · rw [named] at drawn
        exact absurd holdsId ((apart.fresh id drawn).1 chosen used)

theorem CounterInvariant.keeps_global (holds : CounterInvariant crypto past event.before)
    (step : Step crypto event.input event.before event.outcome event.after.ledger) (steady : NoWrap event)
    (counted : Since (fun earlier => Emits id count earlier ∧ ¬ FromTable crypto id earlier) Resets (past ++ [event])) :
    count ≤ event.after.ledger.global := by
  rcases since_snoc.mp counted with ⟨emitted, elsewhere⟩ | ⟨before, lasting⟩
  · cases emitted_cases step holds.waiting emitted with
    | registered drawn counted placed => exact counted ▸ UInt32.le_refl _
    | unwrapped target next counted => exact counted ▸ UInt32.le_refl _
    | table slot from? => exact absurd from? elsewhere
  · exact UInt32.le_trans (holds.global id count before) (steady.global lasting)

theorem CounterInvariant.keeps (holds : CounterInvariant crypto past event.before)
    (step : Step crypto event.input event.before event.outcome event.after.ledger)
    (apart : CountsApart crypto past event) (steady : NoWrap event) :
    CounterInvariant crypto (past ++ [event]) event.after where
  distinct := step.distinct holds.distinct fun id drawn => (apart.fresh id drawn).1
  waiting slot waits := by
    obtain ⟨same, eligible | ⟨-, pending⟩⟩ := step.waiting waits
    · exact same.inUse.trans eligible.inUse
    · exact same.inUse.trans (holds.waiting slot pending)
  table earlier inside id count emitted slot inUse named := holds.keeps_table step apart steady inside emitted inUse named
  global id count counted := holds.keeps_global step steady counted

end

/-- The counters emitted for one id rise in every run that keeps the two kinds of
counters apart. -/
theorem sign_counters_rise (crypto : Crypto) (start : Ctx) (distinct : Distinct start.ledger)
    (idle : start.ledger.pending = []) (requests : List Request)
    (steady : Throughout ((authenticator crypto).run start requests) fun _ event => NoWrap event)
    (apart : Throughout ((authenticator crypto).run start requests) (CountsApart crypto)) :
    Throughout ((authenticator crypto).run start requests) Rises := by
  have both : Throughout ((authenticator crypto).run start requests)
      fun past event => CountsApart crypto past event ∧ NoWrap event :=
    fun front event back shape => ⟨apart front event back shape, steady front event back shape⟩
  refine Machine.run_throughout (CounterInvariant crypto) ?_ ?_ ?_ both
  · intro past state request holds ⟨apart, steady⟩
    exact holds.keeps (process_step crypto request state) apart steady
  · intro past state request holds ⟨apart, steady⟩
    exact holds.makes (process_step crypto request state) apart steady
  · refine ⟨distinct, by simp [idle], (fun earlier inside => nomatch inside), ?_⟩
    rintro id count ⟨front, event, back, nothing, -⟩
    simp at nothing

/-- A check of one exchange that can be computed. -/
def steady (event : Exchange) : Bool :=
  decide (event.before.ledger.global ≤ event.after.ledger.global) &&
    credSlots.all fun slot => decide ((event.before.ledger.entries slot).signCount ≤
      (event.after.ledger.entries slot).signCount)

theorem NoWrap.of_steady {event : Exchange} (checked : steady event = true) : NoWrap event := by
  obtain ⟨global, table⟩ := Bool.and_eq_true_iff.mp checked
  refine ⟨fun _ => of_decide_eq_true global, fun slot _ _ => ?_⟩
  exact of_decide_eq_true (List.all_eq_true.mp table slot (List.mem_finRange slot))

theorem CountsApart.of_sealed {crypto : Crypto} {past : List Exchange} {event : Exchange}
    (sealed : unwrapTarget crypto event.input event.before = none)
    (fresh : ∀ id, drawnId crypto event.input event.before = some id →
      Unstored id event.before.ledger ∧ ∀ earlier ∈ past, ∀ count, ¬ Emits id count earlier) :
    CountsApart crypto past event :=
  ⟨fresh, fun _ target => (nomatch sealed.symm.trans target), fun _ target => (nomatch sealed.symm.trans target)⟩

theorem sign_counters_rise_plain :
    Throughout ((authenticator tagCipher).run (plainCtx false) [residentRequest 1 1, discoverRequest, discoverRequest])
      Rises := by
  obtain ⟨made, first, second, shape⟩ := List.length_eq_three.mp (by decide +kernel : ((authenticator tagCipher).run
    (plainCtx false) [residentRequest 1 1, discoverRequest, discoverRequest]).length = 3)
  have seen : ((authenticator tagCipher).run (plainCtx false) [residentRequest 1 1, discoverRequest, discoverRequest]).map
      (fun event => (drawnId tagCipher event.input event.before, unwrapTarget tagCipher event.input event.before,
        event.before.ledger.used, steady event)) =
      [(some (plainId 1), none, [], true), (none, none, [firstSlot], true), (none, none, [firstSlot], true)] := by
    decide +kernel
  rw [shape] at seen
  simp only [List.map_cons, List.map_nil, List.cons.injEq, Prod.mk.injEq] at seen
  obtain ⟨⟨-, madeOpens, unused, madeSteady⟩, ⟨firstDraws, firstOpens, -, firstSteady⟩,
    ⟨secondDraws, secondOpens, -, secondSteady⟩, -⟩ := seen
  apply sign_counters_rise tagCipher (plainCtx false) (plainCtx_distinct false) rfl <;> rw [shape]
  · exact .cons (.of_steady madeSteady) (.cons (.of_steady firstSteady) (.cons (.of_steady secondSteady) (.nil _ _)))
  · refine .cons (.of_sealed madeOpens ?_) (.cons (.of_sealed firstOpens ?_) (.cons (.of_sealed secondOpens ?_) (.nil _ _)))
    · refine fun id _ => ⟨fun slot used => ?_, fun earlier inside => nomatch inside⟩
      exact absurd (mem_used used) (by rw [unused]; exact List.not_mem_nil)
    · exact fun id drawn => nomatch firstDraws.symm.trans drawn
    · exact fun id drawn => nomatch secondDraws.symm.trans drawn

theorem counters_repeat_across_lookups :
    ¬ ∀ crypto : Crypto, crypto.GcmExact → ∀ start : Ctx, Distinct start.ledger → start.ledger.pending = [] →
      ∀ requests, (Throughout ((authenticator crypto).run start requests) fun _ event => NoWrap event) →
        Throughout ((authenticator crypto).run start requests) Rises := by
  intro claimed
  obtain ⟨made, found, opened, shape⟩ := List.length_eq_three.mp (by decide +kernel : ((authenticator tagCipher).run
    (plainCtx false) [residentRequest 1 1, discoverRequest, allowRequest (plainId 1)]).length = 3)
  have seen : ((authenticator tagCipher).run (plainCtx false)
      [residentRequest 1 1, discoverRequest, allowRequest (plainId 1)]).map
      (fun event => (emission event.outcome, steady event)) =
      [(some (plainId 1, 1), true), (some (plainId 1, 2), true), (some (plainId 1, 2), true)] := by decide +kernel
  rw [shape] at seen
  simp only [List.map_cons, List.map_nil, List.cons.injEq, Prod.mk.injEq] at seen
  obtain ⟨⟨-, madeSteady⟩, ⟨foundCount, foundSteady⟩, ⟨openedCount, openedSteady⟩, -⟩ := seen
  have rises := claimed tagCipher tagCipher_exact (plainCtx false) (plainCtx_distinct false) rfl
    [residentRequest 1 1, discoverRequest, allowRequest (plainId 1)]
  rw [shape] at rises
  have below := rises
    (.cons (.of_steady madeSteady) (.cons (.of_steady foundSteady) (.cons (.of_steady openedSteady) (.nil _ _))))
    [made, found] opened [] rfl (plainId 1) 2 openedCount found (by simp) 2 foundCount
  exact absurd below (by decide)

end Hiya.Fido2
