import Hiya.Proofs.CommandSteps
import Hiya.Proofs.Specimens

/-! Protection levels. The table lookup asks for user verification where a level
demands it, and so do the continuations of that lookup. The way around it is to let
an id unwrap: no level is looked at there. -/

namespace Hiya.Fido2
open Library

/-- No two slots in use hold the same id. -/
def Distinct (ledger : Ledger) : Prop := ∀ id, StoredOnce id ledger

/-- No slot in use holds the id. -/
def Unstored (id : CredentialId) (ledger : Ledger) : Prop :=
  ∀ slot, (ledger.entries slot).inUse = true → (ledger.entries slot).credId ≠ id

/-- A MakeCredential draws an id that is not in the table. -/
def DrawsFresh (crypto : Crypto) (event : Exchange) : Prop :=
  ∀ id, drawnId crypto event.input event.before = some id → Unstored id event.before.ledger

section
variable {crypto : Crypto} {request : Request} {ctx : Ctx} {outcome : Except Status Reply} {ledger : Ledger}

theorem Step.distinct (step : Step crypto request ctx outcome ledger) (distinct : Distinct ctx.ledger)
    (fresh : ∀ id, drawnId crypto request ctx = some id → Unstored id ctx.ledger) : Distinct ledger := by
  obtain ⟨place, origin⟩ := step.origin
  intro id first second firstUsed firstHolds secondUsed secondHolds
  -- a credential that was there before cannot have the id that was just drawn
  have clash {slot : CredSlot} (used : (ledger.entries slot).inUse = true)
      (same : SameCredential (ctx.ledger.entries slot) (ledger.entries slot)) (holds : (ledger.entries slot).credId = id)
      (drawn : drawnId crypto request ctx = some id) : False :=
    fresh id drawn slot (same.inUse ▸ used) (same.credId ▸ holds)
  rcases origin first firstUsed with firstSame | ⟨firstHere, firstDrawn⟩ <;>
    rcases origin second secondUsed with secondSame | ⟨secondHere, secondDrawn⟩
  · exact distinct id first second (firstSame.inUse ▸ firstUsed) (firstSame.credId ▸ firstHolds)
      (secondSame.inUse ▸ secondUsed) (secondSame.credId ▸ secondHolds)
  · exact (clash firstUsed firstSame firstHolds (secondHolds ▸ secondDrawn)).elim
  · exact (clash secondUsed secondSame secondHolds (firstHolds ▸ firstDrawn)).elim
  · rw [firstHere, secondHere]

end

/-- The GetAssertion that an assertion belongs to, itself or the last command before
its GetNextAssertions, meets a condition. -/
def Under (condition : Exchange → Prop) (past : List Exchange) : Prop :=
  Since condition (fun event => event.input.command ≠ .getNextAssertion) past

def VerifiesUser (crypto : Crypto) (event : Exchange) : Prop := Verifies crypto event.input event.before

def ListsId (crypto : Crypto) (id : CredentialId) (event : Exchange) : Prop := Lists crypto event.input event.before id

/-- What the level of a credential demands of the GetAssertion it is asserted by. -/
structure Permits (crypto : Crypto) (past : List Exchange) (entry : Entry) : Prop where
  guarded : entry.level ≥ 3 → Under (VerifiesUser crypto) past
  hidden : entry.level ≥ 2 → Under (fun event => VerifiesUser crypto event ∨ ListsId crypto entry.credId event) past

/-- A stored credential is asserted only as its level allows. -/
def RespectsLevels (crypto : Crypto) (past : List Exchange) (event : Exchange) : Prop :=
  ∀ id, Asserts id event → ∀ slot, (event.before.ledger.entries slot).inUse = true →
    (event.before.ledger.entries slot).credId = id → Permits crypto (past ++ [event]) (event.before.ledger.entries slot)

/-- No unverified GetAssertion unwraps the id of a stored credential of level 3. -/
def UnwrapsOpenly (crypto : Crypto) (event : Exchange) : Prop :=
  ∀ id, unwrapTarget crypto event.input event.before = some id → ∀ slot,
    (event.before.ledger.entries slot).inUse = true → (event.before.ledger.entries slot).credId = id →
    (event.before.ledger.entries slot).level ≥ 3 → VerifiesUser crypto event

section
variable {crypto : Crypto}

theorem Permits.of_eligible {past : List Exchange} {event : Exchange} {slot : CredSlot}
    (eligible : Eligible crypto event.input event.before slot) :
    Permits crypto (past ++ [event]) (event.before.ledger.entries slot) where
  guarded high := since_snoc.mpr (.inl (eligible.guarded high))
  hidden high := since_snoc.mpr (.inl (eligible.hidden high))

theorem Permits.next {past : List Exchange} {event : Exchange} {entry : Entry} (permits : Permits crypto past entry)
    (continues : event.input.command = .getNextAssertion) : Permits crypto (past ++ [event]) entry where
  guarded high := since_snoc.mpr (.inr ⟨permits.guarded high, fun other => other continues⟩)
  hidden high := since_snoc.mpr (.inr ⟨permits.hidden high, fun other => other continues⟩)

theorem Permits.congr {past : List Exchange} {before after : Entry} (same : SameCredential before after)
    (permits : Permits crypto past before) : Permits crypto past after where
  guarded high := permits.guarded (same.level ▸ high)
  hidden high := by
    rw [same.credId]
    exact permits.hidden (same.level ▸ high)

theorem lists_of_target {request : Request} {ctx : Ctx} {id : CredentialId}
    (target : unwrapTarget crypto request ctx = some id) : Lists crypto request ctx id := by
  obtain ⟨found, looked, first⟩ := Option.bind_eq_some_iff.mp target
  exact ⟨found, looked, List.mem_of_find?_eq_some first⟩

end

/-- Every waiting slot is in use and may be asserted under the command that chose it. -/
structure LevelInvariant (crypto : Crypto) (past : List Exchange) (ctx : Ctx) : Prop where
  distinct : Distinct ctx.ledger
  waiting : ∀ slot ∈ ctx.ledger.pending,
    (ctx.ledger.entries slot).inUse = true ∧ Permits crypto past (ctx.ledger.entries slot)

theorem levels_respected (crypto : Crypto) (start : Ctx) (distinct : Distinct start.ledger)
    (idle : start.ledger.pending = []) (requests : List Request)
    (fits : Throughout ((authenticator crypto).run start requests)
      fun _ event => DrawsFresh crypto event ∧ UnwrapsOpenly crypto event) :
    Throughout ((authenticator crypto).run start requests) (RespectsLevels crypto) := by
  refine Machine.run_throughout (LevelInvariant crypto) ?_ ?_ ⟨distinct, by simp [idle]⟩ fits
  · intro past state request holds ⟨fresh, _⟩
    have step : Step crypto request state _ _ := process_step crypto request state
    refine ⟨step.distinct holds.distinct fresh, fun slot waits => ?_⟩
    obtain ⟨same, admitted⟩ := step.waiting waits
    rcases admitted with eligible | ⟨continues, pending⟩
    · exact ⟨same.inUse.trans eligible.inUse, .congr same (.of_eligible eligible)⟩
    · obtain ⟨used, permits⟩ := holds.waiting slot pending
      exact ⟨same.inUse.trans used, .congr same (permits.next continues)⟩
  · intro past state request holds ⟨_, openly⟩ id asserted slot used named
    have step : Step crypto request state _ _ := process_step crypto request state
    obtain ⟨flags, count, bytes, outcome⟩ := exists_of_assertedId asserted
    rw [show (process crypto request state).1 = _ from outcome] at step
    rcases step.asserted with ⟨target, -⟩ | ⟨chosen, -, admitted, holdsId, -⟩
    · refine ⟨fun high => since_snoc.mpr (.inl (openly id target slot used named high)), fun _ => since_snoc.mpr (.inl ?_)⟩
      exact .inr (named ▸ lists_of_target target)
    · rcases admitted with eligible | ⟨continues, pending⟩
      · obtain rfl : slot = chosen := holds.distinct id slot chosen used named eligible.inUse holdsId
        exact .of_eligible eligible
      · obtain ⟨inUse, permits⟩ := holds.waiting chosen pending
        obtain rfl : slot = chosen := holds.distinct id slot chosen used named inUse holdsId
        exact permits.next continues

theorem plainCtx_distinct (verifyUser : Bool) : Distinct (plainCtx verifyUser).ledger :=
  fun _ _ _ used => nomatch used

theorem levels_respected_verified :
    Throughout ((authenticator tagCipher).run (plainCtx true) [residentRequest 1 3, allowRequest (plainId 1)])
      (RespectsLevels tagCipher) := by
  apply levels_respected tagCipher (plainCtx true) (plainCtx_distinct true) rfl
  obtain ⟨made, asked, shape⟩ := List.length_eq_two.mp (by decide +kernel :
    ((authenticator tagCipher).run (plainCtx true) [residentRequest 1 3, allowRequest (plainId 1)]).length = 2)
  have seen : ((authenticator tagCipher).run (plainCtx true) [residentRequest 1 3, allowRequest (plainId 1)]).map
      (fun event => ((lookup tagCipher event.input event.before).map Lookup.uv,
        unwrapTarget tagCipher event.input event.before, drawnId tagCipher event.input event.before,
        event.before.ledger.used)) =
      [(none, none, some (plainId 1), []), (some true, some (plainId 1), none, [firstSlot])] := by decide +kernel
  rw [shape] at seen ⊢
  simp only [List.map_cons, List.map_nil, List.cons.injEq, Prod.mk.injEq] at seen
  obtain ⟨⟨-, madeOpens, -, unused⟩, ⟨verified, -, askedDraws, -⟩, -⟩ := seen
  refine .cons ⟨?_, ?_⟩ (.cons ⟨?_, ?_⟩ (.nil _ _))
  · exact fun id _ slot used => absurd (mem_used used) (by rw [unused]; exact List.not_mem_nil)
  · exact fun id target => nomatch madeOpens.symm.trans target
  · exact fun id drawn => nomatch askedDraws.symm.trans drawn
  · exact fun id _ slot _ _ _ => Option.map_eq_some_iff.mp verified

theorem unwrapping_ignores_level :
    ¬ ∀ crypto : Crypto, crypto.GcmExact → ∀ start : Ctx, Distinct start.ledger → start.ledger.pending = [] →
      ∀ requests, Throughout ((authenticator crypto).run start requests) (RespectsLevels crypto) := by
  intro claimed
  obtain ⟨made, asked, shape⟩ := List.length_eq_two.mp (by decide +kernel :
    ((authenticator tagCipher).run (plainCtx false) [residentRequest 1 3, allowRequest (plainId 1)]).length = 2)
  have seen : ((authenticator tagCipher).run (plainCtx false) [residentRequest 1 3, allowRequest (plainId 1)]).map
      (fun event => ((lookup tagCipher event.input event.before).map Lookup.uv, assertedId event.outcome,
        (event.before.ledger.entries firstSlot).inUse, (event.before.ledger.entries firstSlot).level,
        decide ((event.before.ledger.entries firstSlot).credId = plainId 1))) =
      [(none, none, false, 0, false), (some false, some (plainId 1), true, 3, true)] := by decide +kernel
  rw [shape] at seen
  simp only [List.map_cons, List.map_nil, List.cons.injEq, Prod.mk.injEq, decide_eq_true_eq] at seen
  obtain ⟨⟨unlooked, -⟩, ⟨unverified, asserted, used, level, holds⟩, -⟩ := seen
  have permits := claimed tagCipher tagCipher_exact (plainCtx false) (plainCtx_distinct false) rfl
    [residentRequest 1 3, allowRequest (plainId 1)] [made] asked [] shape (plainId 1) asserted firstSlot used holds
  have verifies (event : Exchange) (verified : VerifiesUser tagCipher event) :
      (lookup tagCipher event.input event.before).map Lookup.uv = some true := Option.map_eq_some_iff.mpr verified
  rcases since_snoc.mp (permits.guarded (by rw [level]; decide)) with verified | ⟨earlier, -⟩
  · cases unverified.symm.trans (verifies asked verified)
  · rcases since_snoc.mp (show Under _ ([] ++ [made]) from earlier) with verified | ⟨⟨front, event, back, nothing, -⟩, -⟩
    · cases unlooked.symm.trans (verifies made verified)
    · simp at nothing

end Hiya.Fido2
