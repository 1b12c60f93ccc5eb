import Hiya.Daemon.VerifyLoops
import Hiya.Proofs.DaemonSpecimens

/-! The three verification loops put the same templates to the sensor and come to the same
result, and the trial that the entry points are modelled with is each of them. -/

namespace Hiya.Daemon
open Library

section
variable {env : Env} {policy : TpmPolicy}

theorem verifyData_eq (vi : Nat) (enrolled : Enrollment) :
    verifyData env policy vi enrolled = chooseTemplate env policy (env.locks vi) vi enrolled := by
  unfold verifyData chooseTemplate
  by_cases sealedBlob : enrolled.sealedBlob.bytes = []
  · have none : ¬ enrolled.sealedBlob.bytes.length > 0 := by rw [sealedBlob]; exact Nat.lt_irrefl 0
    rw [if_neg none, if_neg (not_not_intro sealedBlob)]
  · rw [if_pos (List.length_pos_iff.mpr sealedBlob), if_pos sealedBlob]
    congr 2
    rcases env.unseals vi enrolled.sealedBlob.bytes with _ | _ | ⟨first, rest⟩
    · rfl
    · rfl
    · rfl

theorem daemonVerifyData_eq (i : Nat) (enrolled : Enrollment) :
    daemonVerifyData env policy i enrolled = chooseTemplate env policy true i enrolled := by
  obtain ⟨available, fallback, require⟩ := policy
  unfold daemonVerifyData chooseTemplate
  by_cases sealedBlob : enrolled.sealedBlob.bytes = []
  · have none : ¬ enrolled.sealedBlob.bytes.length > 0 := by rw [sealedBlob]; exact Nat.lt_irrefl 0
    rw [if_neg none, if_neg (not_not_intro sealedBlob)]
    cases require with
    | true => rfl
    | false => rfl
  · rw [if_pos (List.length_pos_iff.mpr sealedBlob), if_pos sealedBlob]
    cases available with
    | false =>
      cases require with
      | true => rfl
      | false => rfl
    | true =>
      rcases env.unseals i enrolled.sealedBlob.bytes with _ | _ | ⟨first, rest⟩
      · cases fallback <;> cases require <;> rfl
      · cases fallback <;> cases require <;> rfl
      · rfl

def Contact.comparison (contact : Contact) : Comparison := { template := contact.template, matched := contact.matched }

/-- What a loop has come to: its verdict, and what it has put to the sensor after `before`. -/
structure Reports (before contacts : List Contact) (denied matched policyDenied : Bool) (trial : Trial) : Prop where
  verdict : matched = trial.accepted.isSome
  denial : policyDenied = (denied || trial.policyDenied)
  asked : contacts.map Contact.comparison = before.map Contact.comparison ++ trial.comparisons

section
variable {before contacts : List Contact} {denied matched policyDenied : Bool} {trial : Trial}

theorem Reports.refused (report : Reports before contacts true matched policyDenied trial) (denied : Bool) :
    Reports before contacts denied matched policyDenied { trial with policyDenied := true } where
  verdict := report.verdict
  denial := by rw [report.denial, Bool.true_or, Bool.or_true]
  asked := report.asked

/-- A template in front of those the rest of the loop puts to the sensor. -/
theorem Reports.compared {contact : Contact}
    (report : Reports (before ++ [contact]) contacts denied matched policyDenied trial) :
    Reports before contacts denied matched policyDenied
    { trial with comparisons := contact.comparison :: trial.comparisons } where
  verdict := report.verdict
  denial := report.denial
  asked := by
    rw [report.asked, List.map_append, List.append_assoc]
    rfl

end

theorem verifyUserLoop_matched (vi : Nat) (own : List Enrollment) {vars : VerifyUserVars} (done : vars.matched = true) :
    verifyUserLoop env policy vi own vars = vars := by
  cases own with
  | nil => rfl
  | cons enrolled rest =>
    unfold verifyUserLoop
    rw [if_pos done]

theorem verifyLoop_matched (vi : Nat) (own : List Enrollment) {vars : VerifyVars} (done : vars.matched = true) :
    verifyLoop env policy vi own vars = vars := by
  cases own with
  | nil => rfl
  | cons enrolled rest =>
    unfold verifyLoop
    rw [if_pos done]

theorem verifyUserLoop_reports (own : List Enrollment) : ∀ (vi : Nat) (denied : Bool) (before : List Contact),
    ∃ reached, verifyUserLoop env policy vi own { matched := false, policyDenied := denied, contacts := before } = reached ∧
      Reports before reached.contacts denied reached.matched reached.policyDenied
        (tryTemplates env policy env.locks (fun _ => true) vi own) := by
  induction own with
  | nil =>
    intro vi denied before
    exact ⟨_, rfl, rfl, (Bool.or_false _).symm, (List.append_nil _).symm⟩
  | cons enrolled rest ih =>
    intro vi denied before
    unfold verifyUserLoop tryTemplates
    rw [if_neg Bool.false_ne_true, verifyUserData, verifyData_eq]
    cases chosen : chooseTemplate env policy (env.locks vi) vi enrolled with
    | none =>
      obtain ⟨reached, same, report⟩ := ih (vi + 1) true before
      exact ⟨reached, same, report.refused denied⟩
    | some data =>
      dsimp only
      rw [Bool.and_true]
      cases answer : env.fpVerify vi data with
      | true =>
        refine ⟨_, verifyUserLoop_matched _ _ rfl, rfl, (Bool.or_false _).symm, ?_⟩
        exact List.map_append
      | false =>
        obtain ⟨reached, same, report⟩ := ih (vi + 1) denied (before ++ [{ template := enrolled, data, matched := false }])
        exact ⟨reached, same, report.compared⟩

/-- The loop of `bio_daemon_verify_user` makes the calls of VerifyUser where every lock
succeeds. -/
theorem daemonVerifyLoop_eq (locked : ∀ number, env.locks number = true) (own : List Enrollment) :
    ∀ (vi : Nat) (denied : Bool) (before : List Contact),
    ∃ reached, verifyUserLoop env policy vi own { matched := false, policyDenied := denied, contacts := before } = reached ∧
      daemonVerifyLoop env policy vi own { rc := .noMatch, policyDenied := denied, contacts := before } =
        { rc := if reached.matched then .ok else .noMatch, policyDenied := reached.policyDenied, contacts := reached.contacts } := by
  induction own with
  | nil => exact fun vi denied before => ⟨_, rfl, rfl⟩
  | cons enrolled rest ih =>
    intro vi denied before
    unfold verifyUserLoop daemonVerifyLoop
    rw [if_neg Bool.false_ne_true, verifyUserData, verifyData_eq, daemonVerifyData_eq, locked]
    cases chosen : chooseTemplate env policy true vi enrolled with
    | none => exact ih (vi + 1) true before
    | some data =>
      dsimp only
      cases answer : env.fpVerify vi data with
      | true => exact ⟨_, verifyUserLoop_matched _ _ rfl, rfl⟩
      | false => exact ih (vi + 1) denied _

theorem daemonVerifyLoop_reports (own : List Enrollment) : ∀ (vi : Nat) (denied : Bool) (before : List Contact),
    ∃ reached, daemonVerifyLoop env policy vi own { rc := .noMatch, policyDenied := denied, contacts := before } = reached ∧
      Reports before reached.contacts denied (reached.rc = .ok) reached.policyDenied
        (tryTemplates env policy (fun _ => true) (fun _ => true) vi own) := by
  induction own with
  | nil =>
    intro vi denied before
    exact ⟨_, rfl, rfl, (Bool.or_false _).symm, (List.append_nil _).symm⟩
  | cons enrolled rest ih =>
    intro vi denied before
    unfold daemonVerifyLoop tryTemplates
    rw [daemonVerifyData_eq]
    cases chosen : chooseTemplate env policy true vi enrolled with
    | none =>
      obtain ⟨reached, same, report⟩ := ih (vi + 1) true before
      exact ⟨reached, same, report.refused denied⟩
    | some data =>
      dsimp only
      rw [Bool.and_true]
      cases answer : env.fpVerify vi data with
      | true => exact ⟨_, rfl, rfl, (Bool.or_false _).symm, List.map_append⟩
      | false =>
        obtain ⟨reached, same, report⟩ := ih (vi + 1) denied (before ++ [{ template := enrolled, data, matched := false }])
        exact ⟨reached, same, report.compared⟩

/-- A match whose token fails takes back the verification, and a later one sets it again. -/
theorem judged_unverified (session : Session) (enrolled : Enrollment) (trial : Trial) :
    ({ session with verified := false } : Session).judged env trial =
      session.judged env { trial with comparisons := { template := enrolled, matched := true } :: trial.comparisons } := by
  unfold Session.judged
  cases trial.accepted with
  | some found => rfl
  | none =>
    dsimp only
    rw [if_pos (by rfl : ({ template := enrolled, matched := true } :: trial.comparisons).any Comparison.matched = true)]
    split
    · rfl
    · rfl

theorem judged_unmatched (session : Session) (enrolled : Enrollment) (trial : Trial) :
    session.judged env trial =
      session.judged env { trial with comparisons := { template := enrolled, matched := false } :: trial.comparisons } := rfl

theorem verifyLoop_reports (own : List Enrollment) : ∀ (vi : Nat) (denied : Bool) (session : Session) (before : List Contact),
    ∃ reached, verifyLoop env policy vi own
    { matched := false, policyDenied := denied, session, matchedFinger := none, contacts := before } =
        reached ∧
      let trial := tryTemplates env policy env.locks (fun number => (issueToken env session number).isSome) vi own
      Reports before reached.contacts denied reached.matched reached.policyDenied trial ∧
        reached.session = session.judged env trial ∧
          reached.matchedFinger = trial.accepted.map fun found => found.2.finger := by
  induction own with
  | nil =>
    intro vi denied session before
    exact ⟨_, rfl, ⟨rfl, (Bool.or_false _).symm, (List.append_nil _).symm⟩, rfl, rfl⟩
  | cons enrolled rest ih =>
    intro vi denied session before
    unfold verifyLoop tryTemplates
    rw [if_neg Bool.false_ne_true, verifyData_eq]
    cases chosen : chooseTemplate env policy (env.locks vi) vi enrolled with
    | none =>
      obtain ⟨reached, same, report, kept, finger⟩ := ih (vi + 1) true session before
      exact ⟨reached, same, report.refused denied, kept, finger⟩
    | some data =>
      dsimp only
      cases answer : env.fpVerify vi data with
      | false =>
        obtain ⟨reached, same, report, kept, finger⟩ :=
          ih (vi + 1) denied session (before ++ [{ template := enrolled, data, matched := false }])
        exact ⟨reached, same, report.compared, kept.trans (judged_unmatched _ enrolled _), finger⟩
      | true =>
        rw [if_pos rfl, Bool.true_and]
        unfold VerifyVars.confirm
        have token : issueToken env { session with verified := true } vi = issueToken env session vi := rfl
        dsimp only
        rw [token]
        cases issued : issueToken env session vi with
        | some verifyToken =>
          rw [if_pos (Option.isSome_some : (some verifyToken).isSome = true)]
          refine ⟨_, verifyLoop_matched _ _ rfl, ⟨rfl, (Bool.or_false _).symm, List.map_append⟩, ?_, rfl⟩
          unfold Session.judged
          dsimp only
          rw [issued]
          rfl
        | none =>
          rw [if_neg (by simp)]
          obtain ⟨reached, same, report, kept, finger⟩ :=
            ih (vi + 1) denied { session with verified := false }
              (before ++ [{ template := enrolled, data, matched := true }])
          refine ⟨reached, same, report.compared, ?_, finger⟩
          exact kept.trans (judged_unverified session enrolled _)

/-- Where every token can be made, the loop of Verify makes the calls of VerifyUser. -/
theorem verifyLoop_eq {session : Session} (issued : ∀ number, (issueToken env session number).isSome = true)
    (own : List Enrollment) :
    ∀ (vi : Nat) (denied : Bool) (before : List Contact),
    ∃ reached, verifyUserLoop env policy vi own { matched := false, policyDenied := denied, contacts := before } = reached ∧
      ∃ ended, verifyLoop env policy vi own
          { matched := false, policyDenied := denied, session, matchedFinger := none, contacts := before } = ended ∧
        ended.matched = reached.matched ∧ ended.policyDenied = reached.policyDenied ∧ ended.contacts = reached.contacts := by
  induction own with
  | nil => exact fun vi denied before => ⟨_, rfl, _, rfl, rfl, rfl, rfl⟩
  | cons enrolled rest ih =>
    intro vi denied before
    unfold verifyUserLoop verifyLoop
    rw [if_neg Bool.false_ne_true, if_neg Bool.false_ne_true, verifyUserData]
    cases chosen : verifyData env policy vi enrolled with
    | none => exact ih (vi + 1) true before
    | some data =>
      dsimp only
      cases answer : env.fpVerify vi data with
      | false => exact ih (vi + 1) denied _
      | true =>
        refine ⟨_, verifyUserLoop_matched _ _ rfl, ?_⟩
        rw [if_pos rfl]
        unfold VerifyVars.confirm
        have token : issueToken env { session with verified := true } vi = issueToken env session vi := rfl
        dsimp only
        rw [token]
        obtain ⟨verifyToken, made⟩ := Option.isSome_iff_exists.mp (issued vi)
        rw [made]
        exact ⟨_, verifyLoop_matched _ _ rfl, rfl, rfl, rfl⟩

end

/-- Memory can be locked, and random bytes and MACs are there when they are asked for. -/
structure Env.Obliging (env : Env) : Prop where
  locks : ∀ number, env.locks number = true
  nonces : ∀ number, (env.nonce number).isSome = true
  macs : ∀ key message, (env.hmac key message).isSome = true

theorem Env.Obliging.issued {env : Env} (obliging : env.Obliging) (session : Session) (number : Nat) :
    (issueToken env session number).isSome = true := by
  obtain ⟨nonce, drawn⟩ := Option.isSome_iff_exists.mp (obliging.nonces number)
  unfold issueToken
  rw [drawn]
  exact obliging.macs _ _

/-- Whatever the templates, the policy, the TPM and the sensor: the three loops put the
same bytes to the sensor in the same order, and accept the user together. -/
theorem verification_loops_agree (env : Env) (policy : TpmPolicy) (session : Session) (own : List Enrollment)
    (obliging : env.Obliging) :
    (verifyRun env policy session own).contacts = (verifyUserRun env policy own).contacts ∧
    (daemonVerifyRun env policy own).contacts = (verifyUserRun env policy own).contacts ∧
    ((verifyRun env policy session own).matched = true ↔ (verifyUserRun env policy own).matched = true) ∧
    ((daemonVerifyRun env policy own).rc = .ok ↔ (verifyUserRun env policy own).matched = true) ∧
    (verifyRun env policy session own).policyDenied = (verifyUserRun env policy own).policyDenied ∧
    (daemonVerifyRun env policy own).policyDenied = (verifyUserRun env policy own).policyDenied := by
  obtain ⟨user, asked, verify, tried, verdict, denial, contacts⟩ :=
    @verifyLoop_eq env policy session (obliging.issued session) own 0 false []
  obtain ⟨reached, same, daemon⟩ := @daemonVerifyLoop_eq env policy obliging.locks own 0 false []
  rw [asked] at same
  subst same
  unfold verifyRun verifyUserRun daemonVerifyRun
  rw [asked, tried, daemon]
  refine ⟨contacts, rfl, by rw [verdict], ?_, denial, rfl⟩
  dsimp only
  cases user.matched with
  | true => exact iff_of_true rfl rfl
  | false => exact iff_of_false nofun nofun

theorem calmEnv_obliging (time : Int) (known : List Bytes) : (calmEnv time known).Obliging where
  locks _ := rfl
  nonces _ := rfl
  macs _ _ := rfl

/-- A sealed template that does not unseal is passed over, and the next one matches. -/
theorem verification_loops_agree_calm :
    (calmEnv 1 [[8]]).Obliging ∧
    (verifyUserRun (calmEnv 1 [[8]]) ⟨true, false, false⟩ [sealedTemplate 1 1 7, plainTemplate 1 2 8]).contacts =
      [{ template := plainTemplate 1 2 8, data := [8], matched := true }] ∧
    (verifyRun (calmEnv 1 [[8]]) ⟨true, false, false⟩ .zero [sealedTemplate 1 1 7, plainTemplate 1 2 8]).contacts =
      (verifyUserRun (calmEnv 1 [[8]]) ⟨true, false, false⟩ [sealedTemplate 1 1 7, plainTemplate 1 2 8]).contacts ∧
    (daemonVerifyRun (calmEnv 1 [[8]]) ⟨true, false, false⟩ [sealedTemplate 1 1 7, plainTemplate 1 2 8]).rc = .ok := by
  obtain ⟨contacts, -, -, accepted, -⟩ :=
    verification_loops_agree (calmEnv 1 [[8]]) ⟨true, false, false⟩ .zero [sealedTemplate 1 1 7, plainTemplate 1 2 8]
      (calmEnv_obliging 1 [[8]])
  exact ⟨calmEnv_obliging 1 [[8]], by decide +kernel, contacts, accepted.mpr (by decide +kernel)⟩

end Hiya.Daemon
