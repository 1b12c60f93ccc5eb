import Hiya.Pm.SecurityAudit
import Hiya.Proofs.EntryOrder
import Mathlib.Data.List.Perm.Basic

/-! The two drivers of the security audit. Each entry adds issues of its own, so what is
found does not depend on the order; the drivers differ only in the order they take. -/

namespace Hiya.Pm.Audit
open Library

structure Report.Agrees (first second : Report) : Prop where
  score : first.overallScore = second.overallScore
  audited : first.entriesAudited = second.entriesAudited
  found : first.issuesFound = second.issuesFound
  critical : first.criticalIssues = second.criticalIssues
  high : first.highIssues = second.highIssues
  medium : first.mediumIssues = second.mediumIssues
  low : first.lowIssues = second.lowIssues
  generated : first.generated = second.generated
  issues : first.issues.Perm second.issues

structure Report.Ordered (report : Report) : Prop where
  sorted : report.issues.Pairwise fun first second => second.severity.code ≤ first.severity.code
  score : report.overallScore.toNat ≤ 100

/-- Both audits end with reports that agree, or both fail. -/
def Agree (first second : Except PmError Report) : Prop :=
  (∃ one two, first = .ok one ∧ second = .ok two ∧ one.Agrees two ∧ one.Ordered ∧ two.Ordered) ∨
  ∃ problem other, first = .error problem ∧ second = .error other

theorem issueSortDesc_total (first second : Issue) : issueSortDesc first second ≤ 0 ∨ issueSortDesc second first ≤ 0 := by
  unfold issueSortDesc
  by_cases same : first.severity = second.severity
  · rw [if_neg (not_not.mpr same), if_neg (not_not.mpr same.symm)]
    omega
  · rw [if_pos same, if_pos (Ne.symm same)]
    omega

theorem code_inj {first second : Severity} (same : first.code = second.code) : first = second := by
  cases first <;> cases second <;> first | rfl | cases same

theorem issueSortDesc_le {first second : Issue} : issueSortDesc first second ≤ 0 ↔
    second.severity.code < first.severity.code ∨
    (first.severity = second.severity ∧ second.scoreImpact.toNat ≤ first.scoreImpact.toNat) := by
  unfold issueSortDesc
  split
  next differ =>
    have apart : first.severity.code ≠ second.severity.code := fun same => differ (code_inj same)
    constructor
    · intro less
      left
      omega
    · rintro (less | ⟨same, -⟩)
      · omega
      · exact absurd same differ
  next same =>
    have same := not_not.mp same
    constructor
    · intro less
      exact .inr ⟨same, by omega⟩
    · rintro (less | ⟨-, less⟩)
      · rw [same] at less
        omega
      · omega

theorem issueSortDesc_trans (first second third : Issue) (one : issueSortDesc first second ≤ 0)
    (two : issueSortDesc second third ≤ 0) :
    issueSortDesc first third ≤ 0 := by
  rw [issueSortDesc_le] at one two ⊢
  obtain less | ⟨same, less⟩ := one
  · obtain lesser | ⟨equal, -⟩ := two
    · left
      omega
    · rw [equal] at less
      exact .inl less
  · rw [same]
    obtain lesser | ⟨equal, lesser⟩ := two
    · exact .inl lesser
    · exact .inr ⟨equal, Nat.le_trans lesser less⟩

theorem severity_of_le {first second : Issue} (less : issueSortDesc first second ≤ 0) :
    second.severity.code ≤ first.severity.code := by
  obtain fewer | ⟨same, -⟩ := issueSortDesc_le.mp less
  · exact Nat.le_of_lt fewer
  · rw [same]

instance : RightCommutative Counters.count where
  right_comm counters first second := by
    have swap : counters.penalty + first.scoreImpact + second.scoreImpact = counters.penalty + second.scoreImpact +
      first.scoreImpact := by
      rw [UInt32.add_assoc, UInt32.add_comm first.scoreImpact, ← UInt32.add_assoc]
    unfold Counters.count
    cases first.severity <;> cases second.severity <;> simp only [swap]

section
variable (qsort : Qsort) (now : Int)

theorem sorted_perm (issues : List Issue) : (finalizeAudit qsort now 0 issues).issues.Perm issues := by
  unfold finalizeAudit
  dsimp only
  split
  · exact qsort.perm _ _
  · exact .refl _

/-- The report depends on the issues alone, not on their order. -/
theorem finalizeAudit_agrees {first second : List Issue} (same : first.Perm second) (audited : Nat) :
    (finalizeAudit qsort now audited first).Agrees (finalizeAudit qsort now audited second) := by
  have counters : first.foldl Counters.count .zero = second.foldl Counters.count .zero := same.foldl_eq _
  have counted : first.length = second.length := same.length_eq
  refine ⟨?_, rfl, congrArg UInt32.ofNat counted, ?_, ?_, ?_, ?_, rfl, ?_⟩
  · dsimp only [finalizeAudit]
    rw [counters]
  · dsimp only [finalizeAudit]
    rw [counters]
  · dsimp only [finalizeAudit]
    rw [counters]
  · dsimp only [finalizeAudit]
    rw [counters]
  · dsimp only [finalizeAudit]
    rw [counters]
  · exact (sorted_perm qsort now first).trans (same.trans (sorted_perm qsort now second).symm)

theorem finalizeAudit_ordered (audited : Nat) (issues : List Issue) : (finalizeAudit qsort now audited issues).Ordered := by
  refine ⟨?_, ?_⟩
  · dsimp only [finalizeAudit]
    split
    · exact (qsort.sorted _ _ issueSortDesc_total issueSortDesc_trans).imp severity_of_le
    next few =>
      match issues, few with
      | [], _ => exact .nil
      | [issue], _ => exact List.pairwise_singleton _ _
      | _ :: _ :: _, few => exact absurd (Nat.succ_lt_succ (Nat.succ_pos _)) few
  · dsimp only [finalizeAudit]
    split
    · exact Nat.zero_le 100
    next few =>
      have less : (issues.foldl Counters.count .zero).penalty < 100 := UInt32.not_le.mp few
      rw [UInt32.toNat_sub_of_le _ _ (UInt32.le_of_lt less)]
      exact Nat.sub_le _ _

end

section
variable (services : Services) (config : Config) (now : Int)

def entryIssues (entry : Entry) : Except PmError (List Issue) := auditEntryPassword services config now [] entry

theorem auditEntryPassword_eq (issues : List Issue) (entry : Entry) :
    auditEntryPassword services config now issues entry = (issues ++ ·) <$> entryIssues services config now entry := by
  unfold entryIssues auditEntryPassword
  dsimp only
  split
  · cases checkPasswordBreach services entry.password.bytes with
    | checked found => exact congrArg Except.ok (List.append_assoc _ _ _)
    | unreachable => rfl
    | failed problem => rfl
  · rfl

/-- If no entry ends the audit, their issues are put together. -/
theorem foldlM_audit_ok {found : Entry → List Issue} {entries : List Entry}
    (each : ∀ entry ∈ entries, entryIssues services config now entry = .ok (found entry))
    (issues : List Issue) : entries.foldlM (auditEntryPassword services config now) issues =
    .ok (issues ++ entries.flatMap found) := by
  induction entries generalizing issues with
  | nil => exact congrArg Except.ok (List.append_nil issues).symm
  | cons entry entries ih =>
    rw [List.foldlM_cons, auditEntryPassword_eq, each entry List.mem_cons_self]
    have rest := ih (fun entry inside => each entry (List.mem_cons_of_mem _ inside)) (issues ++ found entry)
    rw [List.append_assoc, ← List.flatMap_cons] at rest
    exact rest

/-- An entry that ends the audit does so wherever it stands. -/
theorem foldlM_audit_error {entries : List Entry} {entry : Entry} (inside : entry ∈ entries) {problem : PmError}
    (fails : entryIssues services config now entry = .error problem) (issues : List Issue) :
    ∃ other, entries.foldlM (auditEntryPassword services config now) issues = .error other := by
  induction entries generalizing issues with
  | nil => exact absurd inside List.not_mem_nil
  | cons first entries ih =>
    rw [List.foldlM_cons, auditEntryPassword_eq]
    cases one : entryIssues services config now first with
    | error other => exact ⟨other, rfl⟩
    | ok found =>
      obtain rfl | later := List.mem_cons.mp inside
      · rw [one] at fails
        cases fails
      · exact ih later (issues ++ found)

/-- The loop over an iterator takes the entries in its order. -/
theorem auditIterator_eq {payload : Payload} {order : List Nat}
    (inside : ∀ index ∈ order, index < payload.entries.length) (rounds : Nat) :
    ∀ cursor issues audited, order.length < rounds + cursor →
      auditIterator services config now rounds { payload, entryOrder := order, cursor } (issues, audited) =
        (fun found => (found, audited + (order.length - cursor))) <$>
          ((order.drop cursor).filterMap (payload.entries[·]?)).foldlM (auditEntryPassword services config now) issues := by
  induction rounds with
  | zero =>
    intro cursor issues audited past
    rw [List.drop_eq_nil_of_le (by omega), Nat.sub_eq_zero_of_le (by omega)]
    rfl
  | succ rounds ih =>
    intro cursor issues audited enough
    unfold auditIterator entryIteratorNext
    by_cases more : cursor < order.length
    · have index := inside order[cursor] (List.getElem_mem more)
      rw [List.getElem?_eq_getElem more, List.drop_eq_getElem_cons more, List.filterMap_cons]
      dsimp only
      rw [List.getElem?_eq_getElem index]
      dsimp only
      rw [List.foldlM_cons]
      cases auditEntryPassword services config now issues payload.entries[order[cursor]] with
      | error problem => rfl
      | ok found =>
        have rest := ih (cursor + 1) found (audited + 1) (by omega)
        have counted : audited + 1 + (order.length - (cursor + 1)) = audited + (order.length - cursor) := by omega
        rw [counted] at rest
        exact rest
    · have past : order.length ≤ cursor := Nat.not_lt.mp more
      rw [List.getElem?_eq_none past, List.drop_eq_nil_of_le past, Nat.sub_eq_zero_of_le past]
      rfl

end

theorem securityAuditPerform_eq (qsort : Qsort) (services : Services) (config : Config) (now : Int) (entries : List Entry) :
    securityAuditPerform qsort services config now (some entries) =
      finalizeAudit qsort now entries.length <$> entries.foldlM (auditEntryPassword services config now) [] := by
  unfold securityAuditPerform
  dsimp only
  cases entries.foldlM (auditEntryPassword services config now) [] with
  | error problem => rfl
  | ok issues => rfl

/-- The audit of a vault is that of its entries, in some order. -/
theorem securityAuditRun_eq (qsort : Qsort) (services : Services) (config : Config) (now : Int) {vault : VaultHandle}
    {payload : Payload}
    (unlocked : vaultGetPayloadModel vault = (.ok payload, vault)) :
    ∃ visited : List Entry, visited.Perm payload.entries ∧ securityAuditRun qsort services config now vault =
      finalizeAudit qsort now payload.entries.length <$> visited.foldlM (auditEntryPassword services config now) [] := by
  obtain ⟨order, listed, perm⟩ := listEntries_perm payload
  have begun : vaultStoreBegin vault = some { payload, entryOrder := order, cursor := 0 } := by
    unfold vaultStoreBegin
    rw [unlocked]
    dsimp only
    rw [listed]
  have inside : ∀ index ∈ order, index < payload.entries.length :=
    fun index member => List.mem_range.mp (perm.mem_iff.mp member)
  refine ⟨order.filterMap (payload.entries[·]?), ?_, ?_⟩
  · have taken := perm.filterMap (payload.entries[·]?)
    rwa [filterMap_range] at taken
  · have counted : 0 + (order.length - 0) = payload.entries.length := by
      rw [Nat.zero_add, Nat.sub_zero, perm.length_eq, List.length_range]
    unfold securityAuditRun
    rw [begun]
    dsimp only
    rw [auditIterator_eq services config now inside _ 0 [] 0 (by omega), List.drop_zero, counted]
    cases (order.filterMap (payload.entries[·]?)).foldlM (auditEntryPassword services config now) [] with
    | error problem => rfl
    | ok issues => rfl

/-- For an unlocked vault and its entries in any order, the two drivers report the same. -/
theorem audits_agree (qsort : Qsort) (services : Services) (config : Config) (now : Int) (vault : VaultHandle)
    (payload : Payload)
    (unlocked : vaultGetPayloadModel vault = (.ok payload, vault)) (entries : List Entry)
    (same : entries.Perm payload.entries) :
    Agree (securityAuditPerform qsort services config now (some entries))
    (securityAuditRun qsort services config now vault) := by
  obtain ⟨visited, perm, run⟩ := securityAuditRun_eq qsort services config now unlocked
  have taken : visited.Perm entries := perm.trans same.symm
  rw [run, securityAuditPerform_eq, ← same.length_eq]
  by_cases failing : ∃ entry ∈ entries, ∃ problem, entryIssues services config now entry = .error problem
  · obtain ⟨entry, member, problem, fails⟩ := failing
    obtain ⟨one, first⟩ := foldlM_audit_error services config now member fails []
    obtain ⟨two, second⟩ := foldlM_audit_error services config now (taken.mem_iff.mpr member) fails []
    rw [first, second]
    exact .inr ⟨one, two, rfl, rfl⟩
  · have each : ∀ entry ∈ entries, ∃ found, entryIssues services config now entry = .ok found := by
      intro entry member
      cases one : entryIssues services config now entry with
      | error problem => exact absurd ⟨entry, member, problem, one⟩ failing
      | ok found => exact ⟨found, rfl⟩
    let found (entry : Entry) : List Issue := (entryIssues services config now entry).toOption.getD []
    have each : ∀ entry ∈ entries, entryIssues services config now entry = .ok (found entry) := by
      intro entry member
      obtain ⟨issues, one⟩ := each entry member
      dsimp only [found]
      rw [one]
      rfl
    have again : ∀ entry ∈ visited, entryIssues services config now entry = .ok (found entry) :=
      fun entry member => each entry (taken.mem_iff.mp member)
    rw [foldlM_audit_ok services config now each, foldlM_audit_ok services config now again]
    refine .inl ⟨_, _, rfl, rfl, finalizeAudit_agrees qsort now ?_ _, finalizeAudit_ordered qsort now _ _,
      finalizeAudit_ordered qsort now _ _⟩
    exact taken.symm.flatMap_right found

/-- A sort that keeps equal items in order. -/
def Qsort.merge : Qsort where
  sort compare items := items.mergeSort fun first second => compare first second ≤ 0
  perm compare items := List.mergeSort_perm items _
  sorted compare items total trans := by
    have sorted : (items.mergeSort fun first second => compare first second ≤ 0).Pairwise fun first second => decide
      (compare first second ≤ 0) = true := by
      apply List.pairwise_mergeSort
      · intro first second third one two
        exact decide_eq_true (trans first second third (of_decide_eq_true one) (of_decide_eq_true two))
      · intro first second
        rw [Bool.or_eq_true, decide_eq_true_iff, decide_eq_true_iff]
        exact total first second
    exact sorted.imp of_decide_eq_true

/-- An estimator that knows no words, and no network. -/
def Services.offline : Services where
  estimate _ := ⟨0, false⟩
  sha1 _ := none
  fetchRange _ := .unavailable

theorem audits_agree_pairVault :
    Agree (securityAuditPerform .merge .offline configDefault 0 (some (modelOf pairVault).entries.reverse))
      (securityAuditRun .merge .offline configDefault 0 pairVault) := by
  have unlocked : vaultGetPayloadModel pairVault = (.ok (modelOf pairVault), pairVault) := by decide +kernel
  exact audits_agree .merge .offline configDefault 0 pairVault (modelOf pairVault) unlocked _ (List.reverse_perm _)

end Hiya.Pm.Audit
