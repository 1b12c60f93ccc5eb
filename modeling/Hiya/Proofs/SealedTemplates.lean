import Hiya.Proofs.LoopAgreement

/-! What the verification loops do with the plaintext that is stored beside a sealed
template. It stands in for the sealed one when unsealing fails and the policy allows a
fallback, and when there is no TPM and none is required. -/

namespace Hiya.Daemon
open Library

def Contact.FromTpm (env : Env) (d : State) (own : List Enrollment) (contact : Contact) : Prop :=
  d.tpmAvailable = true ∧ ∃ place, own[place]? = some contact.template ∧
    env.unseals place contact.template.sealedBlob.bytes = some contact.data

def State.FallsBack (d : State) : Prop :=
  tpmPlaintextFallbackAllowed (some d.config) = true ∨ d.tpmAvailable = false ∧ d.config.tpmRequire = false

structure AgreeBehindSeal (first second : Enrollment) : Prop where
  sealedBlob : first.sealedBlob = second.sealedBlob
  unsealed : first.sealedBlob.bytes = [] → first = second

def Contact.seen (contact : Contact) : Bytes × Bool := (contact.data, contact.matched)

section
variable {env : Env} {d : State}

structure Careful (env : Env) (d : State) (choose : Nat → Enrollment → Option Bytes) : Prop where
  shown : ∀ {number template data}, choose number template = some data → template.sealedBlob.bytes ≠ [] →
    (d.tpmAvailable = true ∧ env.unseals number template.sealedBlob.bytes = some data) ∨
      (data = template.printData.bytes ∧ d.FallsBack)
  blind : ¬ d.FallsBack → ∀ {first second}, AgreeBehindSeal first second →
    ∀ number, choose number first = choose number second

private theorem chooseTemplate_shown {locks : Bool} {number : Nat} {template : Enrollment} {data : Bytes}
    (chosen : chooseTemplate env d.tpmPolicy locks number template = some data)
    (sealedBlob : template.sealedBlob.bytes ≠ []) :
    (d.tpmAvailable = true ∧ env.unseals number template.sealedBlob.bytes = some data) ∨
    (data = template.printData.bytes ∧ d.FallsBack) := by
  unfold chooseTemplate at chosen
  rw [if_pos sealedBlob] at chosen
  have fallback (chosen : (if d.tpmPolicy.fallback && !d.tpmPolicy.require then some template.printData.bytes
    else none) = some data) :
      data = template.printData.bytes ∧ d.FallsBack := by
    split at chosen
    next allowed => exact ⟨(Option.some.inj chosen).symm, Or.inl allowed⟩
    next => cases chosen
  cases available : d.tpmAvailable with
  | false =>
    have absent : (!d.tpmPolicy.available) = true := by
      unfold State.tpmPolicy
      rw [available]
      rfl
    rw [if_pos absent] at chosen
    split at chosen
    next => cases chosen
    next free => exact Or.inr ⟨(Option.some.inj chosen).symm, Or.inr ⟨available, Bool.eq_false_of_not_eq_true free⟩⟩
  | true =>
    have there : ¬ (!d.tpmPolicy.available) = true := by
      unfold State.tpmPolicy
      rw [available]
      exact Bool.false_ne_true
    rw [if_neg there] at chosen
    split at chosen
    next => cases chosen
    next =>
      split at chosen
      next unsealed => exact Or.inl ⟨rfl, unsealed.trans chosen⟩
      next => exact Or.inr (fallback chosen)

private theorem chooseTemplate_blind (kept : ¬ d.FallsBack) {first second : Enrollment}
    (agree : AgreeBehindSeal first second) (locks : Bool) (number : Nat) :
    chooseTemplate env d.tpmPolicy locks number first = chooseTemplate env d.tpmPolicy locks number second := by
  by_cases sealedBlob : first.sealedBlob.bytes = []
  · rw [agree.unsealed sealedBlob]
  have denied : ¬ (d.tpmPolicy.fallback && !d.tpmPolicy.require) = true := fun allowed => kept (Or.inl allowed)
  unfold chooseTemplate
  rw [← agree.sealedBlob, if_pos sealedBlob, if_pos sealedBlob, if_neg denied, if_neg denied]
  by_cases absent : (!d.tpmPolicy.available) = true
  · rw [if_pos absent, if_pos absent]
    have required : d.tpmPolicy.require = true := by
      by_contra free
      exact kept (Or.inr ⟨by simpa [State.tpmPolicy] using absent, Bool.eq_false_of_not_eq_true free⟩)
    rw [if_pos required, if_pos required]
  · rw [if_neg absent, if_neg absent]

private theorem chooseTemplate_careful (locks : Nat → Bool) :
    Careful env d fun number template => chooseTemplate env d.tpmPolicy (locks number) number template where
  shown := chooseTemplate_shown
  blind kept _ _ agree number := chooseTemplate_blind kept agree (locks number) number

private theorem verifyData_careful : Careful env d (verifyData env d.tpmPolicy) := by
  have same : verifyData env d.tpmPolicy = fun vi enrolled => chooseTemplate env d.tpmPolicy (env.locks vi) vi enrolled :=
    funext fun vi => funext fun enrolled => verifyData_eq vi enrolled
  rw [same]
  exact chooseTemplate_careful env.locks

private theorem daemonVerifyData_careful : Careful env d (daemonVerifyData env d.tpmPolicy) := by
  have same : daemonVerifyData env d.tpmPolicy = fun i enrolled => chooseTemplate env d.tpmPolicy true i enrolled :=
    funext fun i => funext fun enrolled => daemonVerifyData_eq i enrolled
  rw [same]
  exact chooseTemplate_careful fun _ => true

/-- The calls of a loop that puts the chosen data to the sensor, up to a match that ends it. -/
def contactsOf (env : Env) (choose : Nat → Enrollment → Option Bytes) (ends : Nat → Bool) : Nat → List Enrollment →
    List Contact
  | _, [] => []
  | number, template :: rest =>
    match choose number template with
    | none => contactsOf env choose ends (number + 1) rest
    | some data =>
      let matched := env.fpVerify number data
      { template, data, matched } :: if matched && ends number then [] else contactsOf env choose ends (number + 1) rest

variable {choose : Nat → Enrollment → Option Bytes} {ends : Nat → Bool}

private theorem contactsOf_chosen (own : List Enrollment) : ∀ number, ∀ contact ∈ contactsOf env choose ends number own,
    ∃ place, own[place]? = some contact.template ∧ choose (number + place) contact.template = some contact.data := by
  induction own with
  | nil => exact fun number contact inside => absurd inside List.not_mem_nil
  | cons template rest ih =>
    intro number contact inside
    have later (inside : contact ∈ contactsOf env choose ends (number + 1) rest) :
        ∃ place, (template :: rest)[place]? = some contact.template ∧
          choose (number + place) contact.template = some contact.data := by
      obtain ⟨place, found, chosen⟩ := ih (number + 1) contact inside
      rw [Nat.add_right_comm number 1 place, Nat.add_assoc] at chosen
      exact ⟨place + 1, found, chosen⟩
    unfold contactsOf at inside
    cases chosen : choose number template with
    | none =>
      rw [chosen] at inside
      exact later inside
    | some data =>
      rw [chosen] at inside
      obtain rfl | inside := List.mem_cons.mp inside
      · exact ⟨0, rfl, chosen⟩
      · split at inside
        · exact absurd inside List.not_mem_nil
        · exact later inside

private theorem contactsOf_seen (careful : Careful env d choose) (kept : ¬ d.FallsBack) {own other : List Enrollment}
    (agree : List.Forall₂ AgreeBehindSeal own other) : ∀ number,
    (contactsOf env choose ends number own).map Contact.seen =
    (contactsOf env choose ends number other).map Contact.seen := by
  induction agree with
  | nil => exact fun number => rfl
  | @cons first second _ _ same _ ih =>
    intro number
    unfold contactsOf
    rw [careful.blind kept same number]
    cases choose number second with
    | none => exact ih (number + 1)
    | some data =>
      refine congrArg ((data, env.fpVerify number data) :: ·) ?_
      split
      · rfl
      · exact ih (number + 1)

private theorem verifyLoop_contacts (own : List Enrollment) : ∀ (vi : Nat) (denied : Bool) (session : Session)
    (before : List Contact),
    (verifyLoop env d.tpmPolicy vi own { matched := false, policyDenied := denied, session, matchedFinger := none, contacts := before }).contacts =
      before ++ contactsOf env (verifyData env d.tpmPolicy) (fun number => (issueToken env session number).isSome)
        vi own := by
  induction own with
  | nil => exact fun vi denied session before => (List.append_nil before).symm
  | cons enrolled rest ih =>
    intro vi denied session before
    unfold verifyLoop contactsOf
    rw [if_neg Bool.false_ne_true]
    cases chosen : verifyData env d.tpmPolicy vi enrolled with
    | none => exact ih (vi + 1) true session before
    | some data =>
      dsimp only
      cases answer : env.fpVerify vi data with
      | false => exact (ih (vi + 1) denied session _).trans (List.append_assoc before [_] _)
      | true =>
        rw [if_pos rfl, Bool.true_and]
        unfold VerifyVars.confirm
        have token : issueToken env { session with verified := true } vi = issueToken env session vi := rfl
        dsimp only
        rw [token]
        cases issued : issueToken env session vi with
        | some verifyToken =>
          dsimp only
          rw [verifyLoop_matched (vi + 1) rest rfl]
          rfl
        | none => exact (ih (vi + 1) denied { session with verified := false } _).trans (List.append_assoc before [_] _)

private theorem verifyUserLoop_contacts (own : List Enrollment) : ∀ (vi : Nat) (denied : Bool) (before : List Contact),
    (verifyUserLoop env d.tpmPolicy vi own { matched := false, policyDenied := denied, contacts := before }).contacts =
      before ++ contactsOf env (verifyData env d.tpmPolicy) (fun _ => true) vi own := by
  induction own with
  | nil => exact fun vi denied before => (List.append_nil before).symm
  | cons enrolled rest ih =>
    intro vi denied before
    unfold verifyUserLoop contactsOf
    rw [if_neg Bool.false_ne_true, verifyUserData]
    cases chosen : verifyData env d.tpmPolicy vi enrolled with
    | none => exact ih (vi + 1) true before
    | some data =>
      dsimp only
      cases answer : env.fpVerify vi data with
      | false => exact (ih (vi + 1) denied _).trans (List.append_assoc before [_] _)
      | true =>
        rw [if_pos rfl, verifyUserLoop_matched (vi + 1) rest rfl]
        rfl

private theorem daemonVerifyLoop_contacts (own : List Enrollment) : ∀ (i : Nat) (denied : Bool) (before : List Contact),
    (daemonVerifyLoop env d.tpmPolicy i own { rc := .noMatch, policyDenied := denied, contacts := before }).contacts =
      before ++ contactsOf env (daemonVerifyData env d.tpmPolicy) (fun _ => true) i own := by
  induction own with
  | nil => exact fun i denied before => (List.append_nil before).symm
  | cons enrolled rest ih =>
    intro i denied before
    unfold daemonVerifyLoop contactsOf
    cases chosen : daemonVerifyData env d.tpmPolicy i enrolled with
    | none => exact ih (i + 1) true before
    | some data =>
      dsimp only
      cases answer : env.fpVerify i data with
      | false => exact (ih (i + 1) denied _).trans (List.append_assoc before [_] _)
      | true => rfl

end

/-- The calls of a path over a user's templates. The plaintext beside a sealed one is put to
the sensor only where it may be, and elsewhere no call depends on it. -/
structure Spares (env : Env) (d : State) (calls : List Enrollment → List Contact) : Prop where
  shown : ∀ own, ∀ contact ∈ calls own, contact.template.sealedBlob.bytes ≠ [] →
    contact.FromTpm env d own ∨ (contact.data = contact.template.printData.bytes ∧ d.FallsBack)
  unread : ¬ d.FallsBack → ∀ own other, List.Forall₂ AgreeBehindSeal own other →
    (calls own).map Contact.seen = (calls other).map Contact.seen

theorem Careful.spares {env : Env} {d : State} {choose : Nat → Enrollment → Option Bytes}
    (careful : Careful env d choose) (ends : Nat → Bool)
    {calls : List Enrollment → List Contact} (made : ∀ own, calls own = contactsOf env choose ends 0 own) :
    Spares env d calls where
  shown own contact inside sealedBlob := by
    rw [made] at inside
    obtain ⟨place, found, chosen⟩ := contactsOf_chosen own 0 contact inside
    rw [Nat.zero_add] at chosen
    exact (careful.shown chosen sealedBlob).imp_left fun unsealed => ⟨unsealed.1, place, found, unsealed.2⟩
  unread kept own other agree := by
    rw [made, made]
    exact contactsOf_seen careful kept agree 0

/-- On each of the three paths the plaintext beside a sealed template is compared only if the
fallback is allowed, or if there is no TPM and none is required. -/
theorem sealed_plaintext_spared (env : Env) (d : State) (session : Session) :
    Spares env d (fun own => (verifyRun env d.tpmPolicy session own).contacts) ∧
    Spares env d (fun own => (verifyUserRun env d.tpmPolicy own).contacts) ∧
    Spares env d (fun own => (daemonVerifyRun env d.tpmPolicy own).contacts) :=
  ⟨verifyData_careful.spares _ fun own => verifyLoop_contacts own 0 false session [],
    verifyData_careful.spares _ fun own => verifyUserLoop_contacts own 0 false [],
    daemonVerifyData_careful.spares _ fun own => daemonVerifyLoop_contacts own 0 false []⟩

/-- Only a fallback that is allowed puts the plaintext to the sensor. -/
def FallsBackAllowed (env : Env) (d : State) (own : List Enrollment) (contacts : List Contact) : Prop :=
  ∀ contact ∈ contacts, contact.template.sealedBlob.bytes ≠ [] → ¬ contact.FromTpm env d own →
    tpmPlaintextFallbackAllowed (some d.config) = true

/-- Without a TPM the plaintext is compared although no fallback is allowed. -/
theorem absent_tpm_falls_back : ¬ ∀ (env : Env) (d : State) (session : Session) (own : List Enrollment),
    FallsBackAllowed env d own (verifyRun env d.tpmPolicy session own).contacts ∧
    FallsBackAllowed env d own (verifyUserRun env d.tpmPolicy own).contacts ∧
    FallsBackAllowed env d own (daemonVerifyRun env d.tpmPolicy own).contacts := by
  intro always
  obtain ⟨-, user, -⟩ := always (calmEnv 1 [[7]]) (plainState []) .zero [sealedTemplate 1 1 7]
  have shown : (verifyUserRun (calmEnv 1 [[7]]) (plainState []).tpmPolicy [sealedTemplate 1 1 7]).contacts =
      [{ template := sealedTemplate 1 1 7, data := [7], matched := true }] := by decide +kernel
  rw [shown] at user
  exact Bool.false_ne_true (user _ (List.mem_singleton_self _)
    (List.cons_ne_nil _ _) fun unsealed => Bool.false_ne_true unsealed.1)

end Hiya.Daemon
