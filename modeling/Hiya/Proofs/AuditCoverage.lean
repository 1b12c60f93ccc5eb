import Hiya.Proofs.AuditOrder

/-! Whether the audit gets to its end. A check that cannot be made is passed over, but for the
breach service: a password it refuses to ask about ends the audit of all entries. -/

namespace Hiya.Pm.Audit
open Library

section
variable (services : Services) (config : Config) (now : Int)

def foundIn (entry : Entry) : List Issue := (entryIssues services config now entry).toOption.getD []

/-- The counters of a report count every issue of every entry. -/
structure Report.Covers (entries : List Entry) (report : Report) : Prop where
  audited : report.entriesAudited.toNat = entries.length
  issues : report.issues.Perm (entries.flatMap (foundIn services config now))
  found : report.issuesFound.toNat = report.issues.length
  critical : report.criticalIssues.toNat = report.issues.countP (·.severity = .critical)
  high : report.highIssues.toNat = report.issues.countP (·.severity = .high)
  medium : report.mediumIssues.toNat = report.issues.countP (·.severity = .medium)
  low : report.lowIssues.toNat = report.issues.countP (·.severity = .low)

/-- The breach check has a password it can hash. -/
def Askable (entry : Entry) : Prop :=
  config.checkBreaches = true → entry.password ≠ .empty ∧ (services.sha1 entry.password.bytes).isSome = true

end

section
variable {services : Services} {config : Config} {now : Int}

theorem password_eq_nil {entry : Entry} : entry.password.bytes = [] ↔ entry.password = .empty :=
  ⟨fun none => CStr.ext_bytes none, fun none => by rw [none]; rfl⟩

/-- The service is asked, whatever it answers, about every password that has a hash. -/
theorem checkPasswordBreach_failed {password : Bytes} :
    (∃ problem, checkPasswordBreach services password = .failed problem) ↔
    ¬ (password ≠ [] ∧ (services.sha1 password).isSome = true) := by
  unfold checkPasswordBreach
  by_cases none : password = []
  · rw [if_pos none]
    exact iff_of_true ⟨_, rfl⟩ fun both => both.1 none
  · rw [if_neg none]
    cases hashed : services.sha1 password with
    | none => exact iff_of_true ⟨_, rfl⟩ fun both => by cases both.2
    | some digest =>
      dsimp only
      refine iff_of_false (fun failed => ?_) fun not => not ⟨none, rfl⟩
      obtain ⟨problem, failed⟩ := failed
      split at failed
      · cases failed
      · cases failed
      · cases failed

theorem entryIssues_ok (entry : Entry) : (∃ found, entryIssues services config now entry = .ok found) ↔
    Askable services config entry := by
  unfold entryIssues auditEntryPassword Askable
  dsimp only
  by_cases asked : config.checkBreaches = true
  · rw [if_pos asked, ← not_iff_not, Classical.not_imp,
      ← not_iff_not.mpr (and_congr_left' (not_congr password_eq_nil)), ← checkPasswordBreach_failed]
    cases checkPasswordBreach services entry.password.bytes with
    | checked found => exact iff_of_false (not_not_intro ⟨_, rfl⟩) fun failed => by cases failed.2.choose_spec
    | unreachable => exact iff_of_false (not_not_intro ⟨_, rfl⟩) fun failed => by cases failed.2.choose_spec
    | failed problem =>
      refine iff_of_true (fun passes => ?_) ⟨asked, problem, rfl⟩
      obtain ⟨found, passes⟩ := passes
      cases passes
  · rw [if_neg asked]
    exact iff_of_true ⟨_, rfl⟩ fun on => absurd on asked

theorem flagged_length_le (found : Bool) (issue : Issue) : (flagged found issue).length ≤ 1 := by
  cases found with
  | true => exact Nat.le_refl 1
  | false => exact Nat.zero_le 1

theorem foundIn_length_le (entry : Entry) : (foundIn services config now entry).length ≤ 8 := by
  have unasked : (auditLocally services config now entry).length ≤ 7 := by
    unfold auditLocally
    dsimp only
    simp only [List.length_append]
    change _ ≤ 1 + 1 + 1 + 1 + 1 + 1 + 1
    iterate 6 refine Nat.add_le_add ?_ (flagged_length_le _ _)
    exact flagged_length_le _ _
  unfold foundIn
  cases one : entryIssues services config now entry with
  | error problem => exact Nat.zero_le 8
  | ok found =>
    change found.length ≤ 8
    unfold entryIssues auditEntryPassword at one
    dsimp only at one
    rw [List.nil_append] at one
    split at one
    · split at one
      next breached _ =>
        obtain rfl := Except.ok.inj one
        rw [List.length_append]
        exact Nat.add_le_add unasked (flagged_length_le _ _)
      · obtain rfl := Except.ok.inj one
        omega
      · cases one
    · obtain rfl := Except.ok.inj one
      omega

end

/-- The counter of a severity. Issues that only inform are not counted. -/
def Counters.of (counters : Counters) : Severity → UInt32
  | .critical => counters.critical
  | .high => counters.high
  | .medium => counters.medium
  | .low => counters.low
  | .info => 0

theorem count_of (counters : Counters) (issue : Issue) {severity : Severity} (counted : severity ≠ .info) :
    (counters.count issue).of severity = if issue.severity = severity then counters.of severity + 1
    else counters.of severity := by
  unfold Counters.count
  cases grave : issue.severity <;> cases severity <;> first | rfl | exact absurd rfl counted

theorem foldl_count_of (issues : List Issue) (counters : Counters) {severity : Severity} (counted : severity ≠ .info) :
    (issues.foldl Counters.count counters).of severity = counters.of severity +
    UInt32.ofNat (issues.countP (·.severity = severity)) := by
  induction issues generalizing counters with
  | nil => exact (UInt32.add_zero _).symm
  | cons issue issues ih =>
    rw [List.foldl_cons, ih, count_of counters issue counted, List.countP_cons]
    by_cases same : issue.severity = severity
    · rw [if_pos same, if_pos (decide_eq_true same), UInt32.ofNat_add, UInt32.add_assoc, UInt32.add_comm 1]
      rfl
    · rw [if_neg same, if_neg (by simpa using same), Nat.add_zero]

theorem counted_toNat {issues : List Issue} (few : issues.length < UInt32.size) {severity : Severity}
    (counted : severity ≠ .info) :
    ((issues.foldl Counters.count .zero).of severity).toNat = issues.countP (·.severity = severity) := by
  have zero : Counters.zero.of severity = 0 := by cases severity <;> rfl
  rw [foldl_count_of _ _ counted, zero, UInt32.zero_add]
  exact UInt32.toNat_ofNat_of_lt' (Nat.lt_of_le_of_lt List.countP_le_length few)

section
variable (qsort : Qsort) {services : Services} {config : Config} {now : Int} {entries : List Entry}

theorem flatMap_foundIn_length_le (entries : List Entry) : (entries.flatMap (foundIn services config now)).length ≤
    entries.length * 8 := by
  induction entries with
  | nil => exact Nat.le_refl 0
  | cons entry entries ih =>
    have one : (foundIn services config now entry).length ≤ 8 := foundIn_length_le entry
    rw [List.flatMap_cons, List.length_append, List.length_cons]
    omega

theorem few_issues (few : entries.length ≤ maxEntries) : (entries.flatMap (foundIn services config now)).length <
    UInt32.size := by
  have bound : (entries.flatMap (foundIn services config now)).length ≤ entries.length * 8 :=
    flatMap_foundIn_length_le entries
  have most : entries.length ≤ 4096 := few
  have size : UInt32.size = 4294967296 := rfl
  omega

/-- The report of all issues covers the entries they are from. -/
theorem finalizeAudit_covers {issues : List Issue} (few : entries.length ≤ maxEntries)
    (perm : issues.Perm (entries.flatMap (foundIn services config now))) :
    (finalizeAudit qsort now entries.length issues).Covers services config now entries := by
  have sorted : (finalizeAudit qsort now entries.length issues).issues.Perm issues := sorted_perm qsort now issues
  have short : issues.length < UInt32.size := perm.length_eq ▸ few_issues few
  have counter (severity : Severity) (counted : severity ≠ .info) : ((issues.foldl Counters.count .zero).of severity).toNat =
      (finalizeAudit qsort now entries.length issues).issues.countP (·.severity = severity) :=
    (counted_toNat short counted).trans (sorted.countP_eq _).symm
  exact {
    audited := UInt32.toNat_ofNat_of_lt' (Nat.lt_of_le_of_lt few (by decide))
    issues := sorted.trans perm
    found := (UInt32.toNat_ofNat_of_lt' short).trans sorted.length_eq.symm
    critical := counter .critical nofun
    high := counter .high nofun
    medium := counter .medium nofun
    low := counter .low nofun }

/-- The audit comes to its end, with a report that covers the entries, just where every
entry can be asked about. -/
theorem audited_iff {visited : List Entry} (few : entries.length ≤ maxEntries) (perm : visited.Perm entries) :
    (∃ report, finalizeAudit qsort now entries.length <$> visited.foldlM (auditEntryPassword services config now)
    [] = .ok report ∧
      report.Covers services config now entries) ↔ ∀ entry ∈ entries, Askable services config entry := by
  constructor
  · intro done entry inside
    obtain ⟨report, done, -⟩ := done
    apply (show (∃ found, entryIssues services config now entry = .ok found) → _ from (entryIssues_ok entry).mp)
    cases one : entryIssues services config now entry with
    | ok found => exact ⟨found, rfl⟩
    | error problem =>
      obtain ⟨other, fails⟩ := foldlM_audit_error services config now (perm.mem_iff.mpr inside) one []
      rw [fails] at done
      cases done
  · intro askable
    have each : ∀ entry ∈ visited, entryIssues services config now entry = .ok (foundIn services config now entry) := by
      intro entry inside
      obtain ⟨found, one⟩ := (entryIssues_ok entry).mpr (askable entry (perm.mem_iff.mp inside))
      unfold foundIn
      rw [one]
      rfl
    rw [foldlM_audit_ok services config now each]
    exact ⟨_, rfl, finalizeAudit_covers qsort few (perm.flatMap_right _)⟩

end

/-- Whatever the services answer, both audits end with a report on every entry just where
the breach check is off or no password is empty or without a hash. -/
theorem audit_covers_iff (qsort : Qsort) (services : Services) (config : Config) (now : Int) (vault : VaultHandle)
    (payload : Payload)
    (unlocked : vaultGetPayloadModel vault = (.ok payload, vault)) :
    ((∃ report, securityAuditRun qsort services config now vault = .ok report ∧
    report.Covers services config now payload.entries) ↔
      ∀ entry ∈ payload.entries, Askable services config entry) ∧
    ((∃ report, securityAuditPerform qsort services config now (some payload.entries) = .ok report ∧
        report.Covers services config now payload.entries) ↔
      ∀ entry ∈ payload.entries, Askable services config entry) := by
  have few : payload.entries.length ≤ maxEntries := (payloadOk_of_decode (getPayloadModel_ok unlocked).2.2).fewEntries
  obtain ⟨visited, perm, run⟩ := securityAuditRun_eq qsort services config now unlocked
  rw [run, securityAuditPerform_eq]
  exact ⟨audited_iff qsort few perm, audited_iff qsort few (.refl _)⟩

/-- A breach service that answers every question, and knows of no breach. -/
def Services.answering : Services where
  estimate _ := ⟨0, false⟩
  sha1 _ := some (.zero 20)
  fetchRange _ := .received []

theorem audit_covers_iff_pairVault :
    ∃ report, securityAuditRun .merge .answering configDefault 0 pairVault = .ok report ∧
      report.Covers .answering configDefault 0 (modelOf pairVault).entries := by
  have unlocked : vaultGetPayloadModel pairVault = (.ok (modelOf pairVault), pairVault) := by decide +kernel
  exact (audit_covers_iff .merge .answering configDefault 0 pairVault (modelOf pairVault)
    unlocked).1.mpr fun _ _ off => by cases off

/-- Two entries without a password, and no question asked: the first one ends the audit. -/
theorem empty_password_ends_audit :
    securityAuditRun .merge .answering { configDefault with checkBreaches := true } 0 pairVault = .error .invalidParam := by
  have unlocked : vaultGetPayloadModel pairVault = (.ok (modelOf pairVault), pairVault) := by decide +kernel
  obtain ⟨visited, perm, run⟩ := securityAuditRun_eq .merge .answering { configDefault with checkBreaches := true } 0 unlocked
  rw [run]
  have empty : ∀ entry ∈ (modelOf pairVault).entries, entry.password.bytes = [] := by decide +kernel
  have two : (modelOf pairVault).entries.length = 2 := by decide +kernel
  cases visited with
  | nil => cases perm.length_eq.trans two
  | cons entry rest =>
    have none := empty entry (perm.mem_iff.mp List.mem_cons_self)
    rw [List.foldlM_cons]
    unfold auditEntryPassword checkPasswordBreach
    dsimp only
    rw [if_pos rfl, if_pos none]
    rfl

end Hiya.Pm.Audit
