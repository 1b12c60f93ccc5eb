import Hiya.Proofs.Attempts
import Hiya.Proofs.EnrollmentRecords

/-! Runs of enrolments and removals, with whatever else the daemon is asked in between.
The state directory follows the list in memory until somebody's last enrolment goes, or
one user more enrols than a save has room for. -/

namespace Hiya.Daemon
open Library

structure Unenrolled (before after : State) : Prop where
  enrollments : after.enrollments = before.enrollments
  disk : after.disk = before.disk

namespace Unenrolled

theorem refl (d : State) : Unenrolled d d := ⟨rfl, rfl⟩

theorem trans {first second third : State} (front : Unenrolled first second) (back : Unenrolled second third) :
    Unenrolled first third :=
  ⟨back.enrollments.trans front.enrollments, back.disk.trans front.disk⟩

theorem unlock (env : Env) (uid : Uid) (d : State) : Unenrolled d (autoUnlockUserVault env uid d) := by
  unfold autoUnlockUserVault
  split
  · exact ⟨rfl, rfl⟩
  · exact .refl d

end Unenrolled

section
variable {mac : Buf 32 → Bytes → Buf 32} {accounts : Accounts} {env : Env}

theorem unenrolled_createSession (now : Int) (uid : Uid) (sender : Name) (d : State) :
    Unenrolled d (createSession env now uid sender d).2 := by
  obtain ⟨sessions, sessionCount, same⟩ := createSession_only env now uid sender d
  rw [same]
  exact ⟨rfl, rfl⟩

theorem unenrolled_letIn (caller : Uid) (sender : Name) (d : State) : Unenrolled d (letIn env caller sender d) := by
  have created : Unenrolled d (createSession env env.later caller sender d).2 :=
    unenrolled_createSession env.later caller sender d
  unfold letIn
  dsimp only
  refine Unenrolled.trans ?_ (.unlock env caller _)
  split
  next made =>
    rw [made] at created
    exact created.trans ⟨rfl, rfl⟩
  next made =>
    rw [made] at created
    exact created

theorem unenrolled_daemonVerifyUser (user : Name) (d : State) : Unenrolled d (daemonVerifyUser accounts env user d).2 := by
  unfold daemonVerifyUser
  split
  · exact .refl d
  · split
    · exact ⟨rfl, rfl⟩
    · dsimp only
      repeat' split
      all_goals exact ⟨rfl, rfl⟩

theorem unenrolled_authenticateWith (answer : Bool → String → Reply) (caller : Uid) (sender : Name) (d : State) :
    Unenrolled d (authenticateWith accounts env answer caller sender d).2 := by
  unfold authenticateWith
  split
  · exact .refl d
  next username _ =>
    have tried : Unenrolled d (daemonVerifyUser accounts env username d).2 := unenrolled_daemonVerifyUser username d
    dsimp only
    split
    · exact tried.trans (unenrolled_letIn caller sender _)
    · split
      · exact tried.trans (unenrolled_letIn caller sender _)
      · exact tried

theorem unenrolled_verify (caller : Uid) (sender : Name) (token : Bytes) (d : State) :
    Unenrolled d (verify env caller sender token d).2 := by
  unfold verify
  rcases found : findSession env.time token d with ⟨_ | slot, reached⟩
  · obtain ⟨sessions, sessionCount, rfl⟩ := findSession_only found
    exact ⟨rfl, rfl⟩
  · obtain ⟨sessions, sessionCount, rfl⟩ := findSession_only found
    dsimp only
    split
    · exact ⟨rfl, rfl⟩
    split
    · exact ⟨rfl, rfl⟩
    split
    · exact ⟨rfl, rfl⟩
    · repeat' split
      all_goals first | exact ⟨rfl, rfl⟩ | skip
      refine Unenrolled.trans ?_ (.unlock env caller _)
      exact ⟨rfl, rfl⟩

theorem unenrolled_verifyUser (caller : Uid) (trustedPortal : Bool) (username : Name) (d : State) :
    Unenrolled d (verifyUser accounts env caller trustedPortal username d).2 := by
  unfold verifyUser
  split
  · exact .refl d
  split
  · exact .refl d
  split
  · exact .refl d
  next target _ _ =>
    split
    · exact ⟨rfl, rfl⟩
    · dsimp only
      repeat' split
      all_goals first | exact ⟨rfl, rfl⟩ | skip
      refine Unenrolled.trans ?_ (.unlock env target _)
      exact ⟨rfl, rfl⟩

theorem unenrolled_revokeFrom (uid : Uid) (sender : Name) (slots : List SessionSlot) : ∀ d : State,
    Unenrolled d (revokeFrom uid sender slots d) := by
  induction slots with
  | nil => exact fun d => .refl d
  | cons slot rest ih =>
    intro d
    unfold revokeFrom
    dsimp only
    split
    · refine Unenrolled.trans ?_ (ih _)
      exact ⟨rfl, rfl⟩
    · exact ih d

theorem unenrolled_prune (d : State) : Unenrolled d (pruneSessions d) := by
  unfold pruneSessions
  generalize ((List.finRange maxSessionSlots).filter fun slot => d.sessionCapacity ≤ slot.val) = slots
  induction slots generalizing d with
  | nil => exact .refl d
  | cons slot rest ih =>
    rw [List.foldl_cons]
    refine Unenrolled.trans ?_ (ih _)
    split
    · exact ⟨rfl, rfl⟩
    · exact .refl d

end

structure Durable (mac : Buf 32 → Bytes → Buf 32) (d : State) : Prop where
  mirrored : Mirrored mac d.disk d.enrollments
  few : Few d.enrollments
  users : (keysOf Enrollment.uid d.enrollments).card ≤ maxSavedUsers

section
variable {mac : Buf 32 → Bytes → Buf 32} {accounts : Accounts} {env : Env} {d : State}

theorem Durable.unenrolled {after : State} (durable : Durable mac d) (same : Unenrolled d after) : Durable mac after := by
  obtain ⟨mirrored, few, users⟩ := durable
  constructor
  · rwa [same.enrollments, same.disk]
  · rwa [same.enrollments]
  · rwa [same.enrollments]

theorem Durable.keep {after : List Enrollment} (durable : Durable mac d) (works : FilesWork env)
    (kept : keysOf Enrollment.uid d.enrollments ⊆ keysOf Enrollment.uid after) (few : Few after)
    (users : (keysOf Enrollment.uid after).card ≤ maxSavedUsers) : Durable mac (d.keepEnrollments env mac after) where
  mirrored := durable.mirrored.save works kept users
  few := few
  users := users

/-- A change that leaves everybody's share as long as it was. -/
theorem Durable.keep_same {after : List Enrollment} (durable : Durable mac d) (works : FilesWork env)
    (same : after.map Enrollment.uid = d.enrollments.map Enrollment.uid) : Durable mac (d.keepEnrollments env mac after) := by
  have keys : keysOf Enrollment.uid after = keysOf Enrollment.uid d.enrollments := by
    unfold keysOf
    rw [same]
  apply durable.keep works
  · rw [keys]
  · intro uid
    rw [length_groupOf, same, ← length_groupOf]
    exact durable.few uid
  · rw [keys]
    exact durable.users

/-- One enrolment more, of a user who has some or for whom there is room. -/
theorem Durable.keep_snoc {new : Enrollment} (durable : Durable mac d) (works : FilesWork env)
    (below : (d.enrollmentsOf new.uid).length < 100)
    (room : ¬ (d.enrollmentsOf new.uid = [] ∧ maxSavedUsers ≤ (keysOf Enrollment.uid d.enrollments).card)) :
    Durable mac (d.keepEnrollments env mac (d.enrollments ++ [new])) := by
  have grown : keysOf Enrollment.uid (d.enrollments ++ [new]) = insert new.uid (keysOf Enrollment.uid d.enrollments) := by
    ext uid
    simp [keysOf]
  apply durable.keep works
  · rw [grown]
    exact Finset.subset_insert _ _
  · intro uid
    have before := durable.few uid
    rw [length_groupOf] at before ⊢
    rw [List.map_append, List.count_append]
    by_cases same : new.uid = uid
    · subst same
      have own : (groupOf Enrollment.uid d.enrollments new.uid).length < 100 := below
      rw [length_groupOf] at own
      simp
      omega
    · simp [same]
      exact before
  · rw [grown]
    by_cases known : new.uid ∈ keysOf Enrollment.uid d.enrollments
    · rw [Finset.insert_eq_of_mem known]
      exact durable.users
    · rw [Finset.card_insert_of_notMem known]
      have nothing : d.enrollmentsOf new.uid = [] := by
        unfold State.enrollmentsOf
        rw [List.filter_eq_nil_iff]
        intro enrolled inside same
        exact known ((mem_keysOf _).mpr ⟨enrolled, inside, of_decide_eq_true same⟩)
      have space : ¬ maxSavedUsers ≤ (keysOf Enrollment.uid d.enrollments).card := fun full => room ⟨nothing, full⟩
      omega

def LastFinger (d : State) (uid : Uid) (finger : UInt8) : Prop :=
  ∃ enrolled, d.enrollmentsOf uid = [enrolled] ∧ enrolled.finger = finger

/-- One enrolment less, of a user who has others. -/
theorem Durable.keep_erase {uid : Uid} {finger : UInt8} (durable : Durable mac d) (works : FilesWork env)
    (found : d.enrollments.any (sameFinger uid finger) = true) (others : ¬ LastFinger d uid finger) :
    Durable mac (d.removeFinger env mac uid finger) := by
  obtain ⟨candidate, inside, named⟩ := List.any_eq_true.mp found
  obtain ⟨enrolled, front, back, -, named, shape, erased⟩ := List.exists_of_eraseP inside named
  obtain ⟨rfl, rfl⟩ : enrolled.uid = uid ∧ enrolled.finger = finger := of_decide_eq_true named
  have counts (k : Uid) : (d.enrollments.map Enrollment.uid).count k =
      ((front ++ back).map Enrollment.uid).count k + if enrolled.uid = k then 1 else 0 := by
    rw [shape]
    simp only [List.map_append, List.map_cons, List.count_append, List.count_cons, beq_iff_eq]
    omega
  have several : 2 ≤ (d.enrollments.map Enrollment.uid).count enrolled.uid := by
    by_contra few
    have one := counts enrolled.uid
    rw [if_pos rfl] at one
    have single : (d.enrollmentsOf enrolled.uid).length = 1 := by
      have length : (d.enrollmentsOf enrolled.uid).length = (d.enrollments.map Enrollment.uid).count enrolled.uid :=
        length_groupOf Enrollment.uid d.enrollments enrolled.uid
      omega
    obtain ⟨only, same⟩ := List.length_eq_one_iff.mp single
    have own : enrolled ∈ d.enrollmentsOf enrolled.uid := by
      refine List.mem_filter.mpr ⟨?_, decide_eq_true rfl⟩
      rw [shape]
      simp
    rw [same, List.mem_singleton] at own
    subst own
    exact others ⟨enrolled, same, rfl⟩
  have kept : keysOf Enrollment.uid d.enrollments ⊆ keysOf Enrollment.uid (front ++ back) := by
    intro k present
    unfold keysOf at present ⊢
    rw [List.mem_toFinset, ← List.count_pos_iff] at present ⊢
    have count := counts k
    by_cases same : enrolled.uid = k
    · subst same
      rw [if_pos rfl] at count
      omega
    · rw [if_neg same] at count
      omega
  have fewer : keysOf Enrollment.uid (front ++ back) ⊆ keysOf Enrollment.uid d.enrollments := by
    intro k present
    unfold keysOf at present ⊢
    rw [List.mem_toFinset, ← List.count_pos_iff] at present ⊢
    have count := counts k
    omega
  unfold State.removeFinger
  rw [erased]
  apply durable.keep works kept
  · intro k
    have before := durable.few k
    rw [length_groupOf] at before ⊢
    have count := counts k
    omega
  · exact (Finset.card_le_card fewer).trans durable.users

theorem replaceFinger_uids (new : Enrollment) (enrollments : List Enrollment) :
    (replaceFinger new enrollments).map Enrollment.uid = enrollments.map Enrollment.uid := by
  induction enrollments with
  | nil => rfl
  | cons old rest ih =>
    unfold replaceFinger
    split
    next same =>
      have named : old.uid = new.uid ∧ old.finger = new.finger := of_decide_eq_true same
      rw [List.map_cons, List.map_cons, named.1]
    next => rw [List.map_cons, List.map_cons, ih]

end

/-- The call takes the last enrolment of a user away. -/
def TakesLast (accounts : Accounts) (request : Request) (d : State) : Prop :=
  match request.call with
  | .removeFinger caller fingerId => ∃ finger, parseFingerIdString fingerId = some finger ∧ LastFinger d caller finger
  | .deleteEnrollment caller finger => 0 ≤ finger ∧ finger ≤ 255 ∧ LastFinger d caller (UInt8.ofNat finger.toInt.toNat)
  | .deleteEnrollments username => ∃ uid, accounts.uidOf username = some uid ∧ d.enrollmentsOf uid ≠ []
  | _ => False

/-- Nothing but the sensor and the TPM stands between a user and another enrolment. -/
structure Admits (env : Env) (d : State) (uid : Uid) : Prop where
  device : d.fpDev = true
  below : (d.enrollmentsOf uid).length < d.config.maxEnrollmentsPerUser
  policy : ¬ (d.config.tpmRequire = true ∧ (!d.tpmAvailable) = true)
  up : d.shuttingDown = false
  memory : env.allocates = true

/-- A user without enrolments, when as many others have some as a save has room for. -/
def Newcomer (d : State) (uid : Uid) : Prop :=
  d.enrollmentsOf uid = [] ∧ maxSavedUsers ≤ (keysOf Enrollment.uid d.enrollments).card

/-- The call enrols one user too many. -/
def Overflows (accounts : Accounts) (request : Request) (d : State) : Prop :=
  match request.call with
  | .enroll caller finger _ => Newcomer d caller ∧ Admits request.env d caller ∧ ¬ (finger < 1 ∨ finger > 10) ∧
      ∃ data sealedBlob, enrollOnSensor request.env = .ok data ∧ sealTemplate request.env d data = .ok sealedBlob
  | .fprintdEnroll username _ => ∃ uid, accounts.uidOf username = some uid ∧ Newcomer d uid ∧ Admits request.env d uid ∧
      ∃ data sealedBlob, request.env.capture = .print data ∧ sealTemplate request.env d data = .ok sealedBlob
  | _ => False

section
variable {mac : Buf 32 → Bytes → Buf 32} {accounts : Accounts} {env : Env} {d : State}

theorem durable_enroll {caller : Uid} {finger : Int16} {label : Name} (durable : Durable mac d) (works : FilesWork env)
    (fits : ¬ Overflows accounts { call := .enroll caller finger label, env } d) :
    Durable mac (enroll env mac caller finger label d).2 := by
  unfold enroll
  dsimp only
  split
  · exact durable
  next inRange =>
  split
  · exact durable
  next device =>
  split
  · exact durable
  next below =>
  split
  · exact durable
  next policy =>
  split
  · exact durable
  next up =>
  split
  · exact durable
  next data captured =>
  split
  · exact durable
  next sealedBlob stored =>
  unfold addEnrollment
  dsimp only
  split
  · exact durable
  next after added =>
    have limit := d.config.enrollmentsBounded
    split at added
    · cases added
      exact durable.keep_same works (replaceFinger_uids _ _)
    · split at added
      next memory =>
        cases added
        apply durable.keep_snoc works
        · change (d.enrollmentsOf caller).length < 100
          omega
        · intro newcomer
          refine fits ⟨newcomer, ?_, inRange, data, sealedBlob, captured, stored⟩
          exact ⟨by simpa using device, by omega, policy, by simpa using up, memory⟩
      · cases added

theorem durable_daemonEnrollUser {user finger : Name} (durable : Durable mac d) (works : FilesWork env)
    (fits : ¬ Overflows accounts { call := .fprintdEnroll user finger, env } d) :
    Durable mac (daemonEnrollUser env mac accounts user finger d).2 := by
  unfold daemonEnrollUser
  dsimp only
  split
  · exact durable
  next uid known =>
  split
  · exact durable
  next device =>
  split
  · exact durable
  next below =>
  split
  · exact durable
  next policy =>
  split
  · exact durable
  next up =>
  split
  · exact durable
  · exact durable
  next data captured =>
  split
  · exact durable
  next memory =>
  split
  · exact durable
  next sealedBlob stored =>
    have limit := d.config.enrollmentsBounded
    apply durable.keep_snoc works
    · change (d.enrollmentsOf uid).length < 100
      omega
    · intro newcomer
      refine fits ⟨uid, known, newcomer, ?_, data, sealedBlob, captured, stored⟩
      exact ⟨by simpa using device, by omega, policy, by simpa using up, by simpa using memory⟩

theorem durable_started (durable : Durable mac d) : Durable mac (d.started mac env) := by
  have loaded := loadEnrollments_mirrored env durable.mirrored durable.few (.refl d.disk.files)
  have perm := durable.mirrored.loaded_perm (.refl d.disk.files)
  have same (uid : Uid) : ((regrouped Enrollment.uid (d.disk.files.map Prod.fst)
    d.enrollments).map Enrollment.uid).count uid =
      (d.enrollments.map Enrollment.uid).count uid := (perm.map Enrollment.uid).count_eq uid
  unfold State.started
  rw [show loadEnrollments mac env d.disk = _ from loaded]
  constructor
  · exact durable.mirrored.reload
  · intro uid
    change (groupOf Enrollment.uid (regrouped Enrollment.uid (d.disk.files.map Prod.fst) d.enrollments) uid).length ≤ 100
    rw [length_groupOf, same, ← length_groupOf]
    exact durable.few uid
  · have keys : keysOf Enrollment.uid (regrouped Enrollment.uid (d.disk.files.map Prod.fst) d.enrollments) =
        keysOf Enrollment.uid d.enrollments := List.toFinset_eq_of_perm _ _ (perm.map Enrollment.uid)
    change (keysOf Enrollment.uid (regrouped Enrollment.uid (d.disk.files.map Prod.fst) d.enrollments)).card ≤ maxSavedUsers
    rw [keys]
    exact durable.users

/-- One step keeps memory and directory together. -/
theorem durable_serve {request : Request} (durable : Durable mac d) (works : FilesWork request.env)
    (kept : ¬ TakesLast accounts request d) (fits : ¬ Overflows accounts request d) :
    Durable mac (serve mac accounts request d).2 := by
  obtain ⟨call, env⟩ := request
  dsimp only at works
  unfold serve
  cases call with
  | authenticate caller sender => exact durable.unenrolled (unenrolled_authenticateWith _ caller sender d)
  | authenticateInteractive caller sender => exact durable.unenrolled (unenrolled_authenticateWith _ caller sender d)
  | revokeSession caller sender => exact durable.unenrolled (unenrolled_revokeFrom caller sender _ d)
  | createSession caller sender requested =>
    have created : Unenrolled d (createSession env env.time (sessionUid caller requested) sender d).2 :=
      unenrolled_createSession _ _ _ d
    change Durable mac (createSessionCall env caller sender requested d).2
    unfold createSessionCall
    split
    next made =>
      rw [made] at created
      exact durable.unenrolled created
    next made =>
      rw [made] at created
      exact durable.unenrolled created
  | verify caller sender token => exact durable.unenrolled (unenrolled_verify caller sender token d)
  | verifyUser caller trustedPortal username =>
    exact durable.unenrolled (unenrolled_verifyUser caller trustedPortal username d)
  | fprintdVerify username => exact durable.unenrolled (unenrolled_daemonVerifyUser username d)
  | enroll caller finger label => exact durable_enroll durable works fits
  | fprintdEnroll username finger => exact durable_daemonEnrollUser durable works fits
  | removeFinger caller fingerId =>
    change Durable mac (removeFinger env mac caller fingerId d).2
    unfold removeFinger
    split
    · exact durable
    next finger parsed =>
      split
      next found => exact durable.keep_erase works found fun last => kept ⟨finger, parsed, last⟩
      next => exact durable
  | deleteEnrollment caller finger =>
    change Durable mac (deleteEnrollment env mac caller finger d).2
    unfold deleteEnrollment
    split
    next found => exact durable.keep_erase works found.2.2 fun last => kept ⟨found.1, found.2.1, last⟩
    next => exact durable
  | deleteEnrollments username =>
    change Durable mac (deleteEnrollments env mac accounts username d).2
    unfold deleteEnrollments
    split
    · exact durable
    next uid known =>
      have nothing : d.enrollmentsOf uid = [] := by
        by_contra some?
        exact kept ⟨uid, known, some?⟩
      have all : d.enrollments.filter (fun enrolled => enrolled.uid ≠ uid) = d.enrollments := by
        rw [List.filter_eq_self]
        intro enrolled inside
        rw [decide_eq_true_iff]
        rintro rfl
        exact List.filter_eq_nil_iff.mp nothing enrolled inside (decide_eq_true rfl)
      exact durable.keep_same works (by rw [all])
  | reload config =>
    have reloaded : Unenrolled d { d with config } := ⟨rfl, rfl⟩
    exact durable.unenrolled (reloaded.trans (unenrolled_prune _))
  | restart => exact durable_started durable

end

/-- The state directory, listed in any order, loads as the enrolments in memory. -/
def Survives (mac : Buf 32 → Bytes → Buf 32) (d : State) : Prop :=
  ∀ (env : Env) (files : List (Uid × Bytes)), files.Perm d.disk.files →
    ∃ loaded, (loadEnrollments mac env { d.disk with files }).1 = some loaded ∧ loaded.Perm d.enrollments

theorem Durable.survives {mac : Buf 32 → Bytes → Buf 32} {d : State} (durable : Durable mac d) : Survives mac d := by
  intro env files listing
  refine ⟨_, ?_, durable.mirrored.loaded_perm listing⟩
  rw [loadEnrollments_mirrored env durable.mirrored durable.few listing]

/-- A daemon without enrolments and without enrolment files. -/
structure Unused (d : State) : Prop where
  enrollments : d.enrollments = []
  files : d.disk.files = []

theorem Unused.durable {d : State} (unused : Unused d) (mac : Buf 32 → Bytes → Buf 32) : Durable mac d := by
  refine ⟨⟨?_, fun uid => ?_, fun entry inside => ?_⟩, fun uid => ?_, ?_⟩
  · rw [unused.files]
    exact List.nodup_nil
  · rw [unused.files, unused.enrollments]
    simp [keysOf]
  · rw [unused.files] at inside
    cases inside
  · rw [unused.enrollments]
    exact Nat.zero_le _
  · rw [unused.enrollments]
    exact Nat.zero_le _

/-- In every run in which the file system does its part, nobody's last enrolment is
removed and no user comes on top of 128 others, the directory survives every step. -/
theorem enrollments_survive (mac : Buf 32 → Bytes → Buf 32) (accounts : Accounts) (start : State) (unused : Unused start)
    (requests : List Request)
    (fine : Throughout ((daemon mac accounts).run start requests) fun _ event =>
      FilesWork event.input.env ∧ ¬ TakesLast accounts event.input event.before ∧
      ¬ Overflows accounts event.input event.before) :
    Throughout ((daemon mac accounts).run start requests) fun _ event => Survives mac event.after := by
  refine Machine.run_throughout (fun _ d => Durable mac d) ?_ ?_ (unused.durable mac) fine
  · intro past d request durable fine
    exact durable_serve durable fine.1 fine.2.1 fine.2.2
  · intro past d request durable fine
    exact (durable_serve durable fine.1 fine.2.1 fine.2.2).survives

theorem calmEnv_filesWork (time : Int) (known : List Bytes) : FilesWork (calmEnv time known) :=
  ⟨fun _ => rfl, fun _ => rfl, fun _ => rfl, fun _ => rfl, rfl⟩

theorem plainState_unused : Unused (plainState []) := ⟨rfl, rfl⟩

def enrollRequest : Request := { call := .enroll 1 7 [], env := calmEnv 1 [] }

theorem enrollments_survive_first :
    Unused (plainState []) ∧
      Throughout ((daemon plainMac plainAccounts).run (plainState []) [enrollRequest])
      fun _ event => Survives plainMac event.after := by
  refine ⟨plainState_unused, enrollments_survive plainMac plainAccounts (plainState []) plainState_unused [enrollRequest] ?_⟩
  have same : (daemon plainMac plainAccounts).run (plainState []) [enrollRequest] =
      [(daemon plainMac plainAccounts).event (plainState []) enrollRequest] := rfl
  rw [same]
  refine .cons ⟨calmEnv_filesWork 1 [], fun last => last, ?_⟩ (.nil _ _)
  rintro ⟨⟨-, full⟩, -⟩
  exact absurd full (by decide)

def deleteRequest : Request := { call := .deleteEnrollment 1 7, env := calmEnv 2 [] }

/-- The finger the user with uid 1 deleted is back after a restart. -/
theorem deleted_finger_comes_back :
    ¬ ∀ (mac : Buf 32 → Bytes → Buf 32) (accounts : Accounts) (start : State), Unused start → ∀ requests : List Request,
      (Throughout ((daemon mac accounts).run start requests) fun _ event => FilesWork event.input.env) →
      Throughout ((daemon mac accounts).run start requests) fun _ event => Survives mac event.after := by
  intro claimed
  have run : (daemon plainMac plainAccounts).run (plainState []) [enrollRequest, deleteRequest] =
      [(daemon plainMac plainAccounts).event (plainState []) enrollRequest,
        (daemon plainMac plainAccounts).event (served enrollRequest (plainState [])) deleteRequest] := rfl
  have all := claimed plainMac plainAccounts (plainState []) plainState_unused [enrollRequest, deleteRequest]
  rw [run] at all
  have survives := all (.cons (calmEnv_filesWork 1 []) (.cons (calmEnv_filesWork 2 []) (.nil _ _)))
    [(daemon plainMac plainAccounts).event (plainState []) enrollRequest] _ [] rfl
  obtain ⟨loaded, known, perm⟩ := survives (calmEnv 3 []) _ (.refl _)
  have forgotten : (served deleteRequest (served enrollRequest (plainState []))).enrollments.length = 0 := by decide +kernel
  have found : (loadEnrollments plainMac (calmEnv 3 [])
    (served deleteRequest (served enrollRequest (plainState []))).disk).1.map
      List.length = some 1 := by decide +kernel
  have same : (loadEnrollments plainMac (calmEnv 3 []) (served deleteRequest (served enrollRequest (plainState []))).disk).1 =
      some loaded := known
  rw [same] at found
  have length := perm.length_eq
  rw [show loaded.length = 1 from Option.some.inj found] at length
  exact absurd (length.trans forgotten) (by decide)

end Hiya.Daemon
