import Hiya.Proofs.DaemonSpecimens

/-! One template for each finger. RemoveFinger and DeleteEnrollment remove the first
template they find for a finger, which is the only one as long as every way to enrol
replaces what is there. The D-Bus method does; the entry point of fprintd appends. -/

namespace Hiya.Daemon
open Library

/-- No finger of a user has two templates. -/
def Unique (enrollments : List Enrollment) : Prop :=
  enrollments.Pairwise fun first second => ¬ (first.uid = second.uid ∧ first.finger = second.finger)

def Call.removes : Call → Option (Uid × UInt8)
  | .removeFinger caller fingerId => (parseFingerIdString fingerId).map fun finger => (caller, finger)
  | .deleteEnrollment caller finger => some (caller, UInt8.ofNat finger.toInt.toNat)
  | _ => none

def Call.enrolls : Call → Bool
  | .enroll .. => true
  | .fprintdEnroll .. => true
  | .removeFinger .. => true
  | .deleteEnrollment .. => true
  | .deleteEnrollments .. => true
  | _ => false

abbrev Served := Event State Request Outcome

def Outcome.removed (outcome : Outcome) : Bool := outcome.reply = .done ∨ outcome.reply = .matched true

/-- After a step no finger has two templates, and one that was removed has none. -/
def FingersUnique (event : Served) : Prop :=
  Unique event.after.enrollments ∧
    ∀ uid finger, event.input.call.removes = some (uid, finger) → event.outcome.removed = true →
      ∀ enrolled ∈ event.after.enrollments, ¬ (enrolled.uid = uid ∧ enrolled.finger = finger)

section
variable (env : Env) (accounts : Accounts)

/-- What `bio_daemon_enroll_user` checks before it stores a template. -/
def State.accepts (uid : Uid) (d : State) : Bool :=
  d.fpDev && (d.enrollmentsOf uid).length < d.config.maxEnrollmentsPerUser && (!d.config.tpmRequire || d.tpmAvailable) &&
    !d.shuttingDown && env.allocates &&
    match env.capture with
    | .print data => (sealTemplate env d data).isOk
    | _ => false

def enrollsAgain (user finger : Name) (d : State) : Bool :=
  match accounts.uidOf user with
  | none => false
  | some uid => d.enrollments.any (sameFinger uid (fingerOfName finger)) && State.accepts env uid d

end

/-- A step that adds or removes templates, other than one that enrols a finger again
through the entry point of fprintd. -/
def addsOnce (accounts : Accounts) (event : Served) : Bool :=
  match event.input.call with
  | .fprintdEnroll user finger => !enrollsAgain event.input.env accounts user finger event.before
  | call => call.enrolls

namespace Unique
variable {enrollments : List Enrollment}

def Free (uid : Uid) (finger : UInt8) (enrollments : List Enrollment) : Prop :=
  ∀ enrolled ∈ enrollments, ¬ (enrolled.uid = uid ∧ enrolled.finger = finger)

theorem free_of_any {uid : Uid} {finger : UInt8} (absent : enrollments.any (sameFinger uid finger) = false) :
    Free uid finger enrollments := by
  intro enrolled inside same
  have no := List.any_eq_false.mp absent enrolled inside
  exact no (by simp [sameFinger, same])

theorem append (unique : Unique enrollments) {new : Enrollment} (free : Free new.uid new.finger enrollments) :
    Unique (enrollments ++ [new]) := by
  refine List.pairwise_append.mpr ⟨unique, List.pairwise_singleton _ _, ?_⟩
  intro first inside second last
  rw [List.mem_singleton.mp last]
  exact free first inside

theorem mem_replaceFinger {new enrolled : Enrollment} (inside : enrolled ∈ replaceFinger new enrollments) :
    enrolled = new ∨ enrolled ∈ enrollments := by
  induction enrollments with
  | nil => exact .inr inside
  | cons old rest ih =>
    unfold replaceFinger at inside
    split at inside
    · obtain same | inside := List.mem_cons.mp inside
      · exact .inl same
      · exact .inr (List.mem_cons_of_mem old inside)
    · obtain same | inside := List.mem_cons.mp inside
      · exact .inr (same ▸ List.mem_cons_self ..)
      · exact (ih inside).imp id (List.mem_cons_of_mem old)

theorem replace (unique : Unique enrollments) (new : Enrollment) : Unique (replaceFinger new enrollments) := by
  induction enrollments with
  | nil => exact List.Pairwise.nil
  | cons old rest ih =>
    obtain ⟨apart, unique⟩ := List.pairwise_cons.mp unique
    unfold replaceFinger
    split
    next same =>
      -- the new template stands for the finger of the old one
      refine List.pairwise_cons.mpr ⟨?_, unique⟩
      intro other inside
      obtain ⟨uid, finger⟩ := of_decide_eq_true same
      rw [← uid, ← finger]
      exact apart other inside
    next different =>
      refine List.pairwise_cons.mpr ⟨?_, ih unique⟩
      intro other inside
      obtain rfl | inside := mem_replaceFinger inside
      · intro same
        exact different (decide_eq_true same)
      · exact apart other inside

/-- Removing the first template of a finger removes the only one. -/
theorem erase_free (unique : Unique enrollments) (uid : Uid) (finger : UInt8) :
    Free uid finger (enrollments.eraseP (sameFinger uid finger)) := by
  induction enrollments with
  | nil => exact fun _ inside => absurd inside List.not_mem_nil
  | cons old rest ih =>
    obtain ⟨apart, unique⟩ := List.pairwise_cons.mp unique
    cases same : sameFinger uid finger old with
    | true =>
      rw [List.eraseP_cons_of_pos same]
      intro other inside taken
      obtain ⟨rfl, rfl⟩ := of_decide_eq_true same
      exact apart other inside ⟨taken.1.symm, taken.2.symm⟩
    | false =>
      rw [List.eraseP_cons_of_neg (by simp [same])]
      intro other inside
      obtain rfl | inside := List.mem_cons.mp inside
      · intro taken
        exact absurd (decide_eq_true taken) (by simpa [sameFinger] using same)
      · exact ih unique other inside

end Unique

section
variable {mac : Buf 32 → Bytes → Buf 32} {accounts : Accounts} {env : Env} {d : State}

theorem unique_addEnrollment {new : Enrollment} {enrollments after : List Enrollment} (unique : Unique enrollments)
    (added : addEnrollment env new enrollments = some after) : Unique after := by
  unfold addEnrollment at added
  split at added
  · cases added
    exact unique.replace new
  next absent =>
    split at added
    · cases added
      exact unique.append (Unique.free_of_any (by simpa using absent))
    · cases added

theorem unique_enroll (unique : Unique d.enrollments) (caller : Uid) (finger : Int16) (label : Name) :
    Unique (enroll env mac caller finger label d).2.enrollments := by
  unfold enroll
  dsimp only
  split
  · exact unique
  split
  · exact unique
  split
  · exact unique
  split
  · exact unique
  split
  · exact unique
  cases enrollOnSensor env with
  | error message => exact unique
  | ok printData =>
    dsimp only
    cases sealTemplate env d printData with
    | error reason => exact unique
    | ok sealedBlob =>
      dsimp only
      split
      · exact unique
      next enrollments added => exact unique_addEnrollment unique added

/-- The entry point of fprintd appends a template if it accepts the user. -/
theorem daemonEnrollUser_appends {user finger : Name} :
    (daemonEnrollUser env mac accounts user finger d).2.enrollments = d.enrollments ∨
      ∃ uid new, accounts.uidOf user = some uid ∧ State.accepts env uid d = true ∧ new.uid = uid ∧
      new.finger = fingerOfName finger ∧
        (daemonEnrollUser env mac accounts user finger d).2.enrollments = d.enrollments ++ [new] := by
  unfold daemonEnrollUser
  cases known : accounts.uidOf user with
  | none => exact .inl rfl
  | some uid =>
    dsimp only
    split
    · exact .inl rfl
    next device =>
      split
      · exact .inl rfl
      next room =>
        split
        · exact .inl rfl
        next policy =>
          split
          · exact .inl rfl
          next up =>
            cases taken : env.capture with
            | alreadyEnrolled => exact .inl rfl
            | failed reason => exact .inl rfl
            | print printData =>
              dsimp only
              split
              · exact .inl rfl
              next memory =>
                cases made : sealTemplate env d printData with
                | error reason => exact .inl rfl
                | ok sealedBlob =>
                  refine .inr ⟨uid, _, rfl, ?_, rfl, rfl, rfl⟩
                  unfold State.accepts
                  rw [taken]
                  dsimp only
                  rw [made]
                  have device : d.fpDev = true := by simpa using device
                  have room : (d.enrollmentsOf uid).length < d.config.maxEnrollmentsPerUser := by simpa using room
                  have policy : (!d.config.tpmRequire || d.tpmAvailable) = true := by
                    by_contra refused
                    exact policy (by simpa using refused)
                  have up : d.shuttingDown = false := by simpa using up
                  have memory : env.allocates = true := by simpa using memory
                  simp [device, room, policy, up, memory, Except.isOk, Except.toBool]

theorem unique_daemonEnrollUser (unique : Unique d.enrollments) {user finger : Name}
    (once : enrollsAgain env accounts user finger d = false) :
    Unique (daemonEnrollUser env mac accounts user finger d).2.enrollments := by
  have appends : (daemonEnrollUser env mac accounts user finger d).2.enrollments = d.enrollments ∨ _ :=
    daemonEnrollUser_appends
  obtain same | ⟨uid, new, known, accepts, rfl, kind, same⟩ := appends
  · rw [same]
    exact unique
  · rw [same]
    refine unique.append (Unique.free_of_any ?_)
    unfold enrollsAgain at once
    rw [known] at once
    dsimp only at once
    rw [accepts, Bool.and_true, ← kind] at once
    exact once

theorem unique_removeFinger (unique : Unique d.enrollments) (uid : Uid) (finger : UInt8) :
    Unique (d.removeFinger env mac uid finger).enrollments := unique.sublist (List.eraseP_sublist ..)

theorem unique_serve {request : Request} (unique : Unique d.enrollments)
    (once : addsOnce accounts ((daemon mac accounts).event d request) = true) :
    Unique (serve mac accounts request d).2.enrollments := by
  obtain ⟨call, env⟩ := request
  unfold addsOnce at once
  cases call with
  | enroll caller finger label => exact unique_enroll unique caller finger label
  | fprintdEnroll user finger =>
    change (!enrollsAgain env accounts user finger d) = true at once
    exact unique_daemonEnrollUser unique (by simpa using once)
  | removeFinger caller fingerId =>
    change Unique (removeFinger env mac caller fingerId d).2.enrollments
    unfold removeFinger
    split
    · exact unique
    · split
      · exact unique_removeFinger unique ..
      · exact unique
  | deleteEnrollment caller finger =>
    change Unique (deleteEnrollment env mac caller finger d).2.enrollments
    unfold deleteEnrollment
    split
    · exact unique_removeFinger unique ..
    · exact unique
  | deleteEnrollments username =>
    change Unique (deleteEnrollments env mac accounts username d).2.enrollments
    unfold deleteEnrollments
    split
    · exact unique
    · exact unique.filter _
  | _ => cases once

/-- What was removed was the only template of the finger. -/
theorem serve_removes {request : Request} (unique : Unique d.enrollments) {uid : Uid} {finger : UInt8}
    (asked : request.call.removes = some (uid, finger)) (removed : (serve mac accounts request d).1.removed = true) :
    Unique.Free uid finger (serve mac accounts request d).2.enrollments := by
  obtain ⟨call, env⟩ := request
  cases call with
  | removeFinger caller fingerId =>
    change (removeFinger env mac caller fingerId d).1.removed = true at removed
    change Unique.Free uid finger (removeFinger env mac caller fingerId d).2.enrollments
    obtain ⟨parsed, named, same⟩ := Option.map_eq_some_iff.mp asked
    cases same
    unfold removeFinger at removed ⊢
    rw [named] at removed ⊢
    dsimp only at removed ⊢
    split at removed
    next found =>
      rw [if_pos found]
      exact unique.erase_free uid finger
    next missing => cases removed
  | deleteEnrollment caller number =>
    change (deleteEnrollment env mac caller number d).1.removed = true at removed
    change Unique.Free uid finger (deleteEnrollment env mac caller number d).2.enrollments
    cases asked
    unfold deleteEnrollment at removed ⊢
    split at removed
    next found =>
      rw [if_pos found]
      exact unique.erase_free uid _
    next missing => cases removed
  | _ => cases asked

/-- As long as the entry point of fprintd enrols no finger again, no finger has two
templates, and a removed one has none. -/
theorem fingers_stay_unique (unique : Unique d.enrollments) (requests : List Request)
    (once : Throughout ((daemon mac accounts).run d requests) fun _ event => addsOnce accounts event = true) :
    Throughout ((daemon mac accounts).run d requests) fun _ event => FingersUnique event :=
  Machine.run_throughout (fun _ d => Unique d.enrollments)
    (fun _ _ _ unique once => unique_serve unique once)
    (fun _ _ _ unique once => ⟨unique_serve unique once, fun _ _ asked removed => serve_removes unique asked removed⟩)
    unique once

end

/-- The user with uid 1 enrols a right index finger, removes it, and does so once more
through fprintd. -/
def enrolledInTurn : List Request :=
  [{ call := .enroll 1 7 [], env := calmEnv 1 [] },
    { call := .removeFinger 1 [0x37], env := calmEnv 2 [] },
    { call := .fprintdEnroll [2] [], env := calmEnv 3 [] },
    { call := .deleteEnrollment 1 7, env := calmEnv 4 [] }]

theorem fingers_stay_unique_in_turn :
    Throughout ((daemon plainMac plainAccounts).run (plainState []) enrolledInTurn) fun _ event => FingersUnique event := by
  refine fingers_stay_unique ?_ enrolledInTurn ?_
  · exact List.Pairwise.nil
  · exact Throughout.of_forall (by decide +kernel)

/-- The user enrols through fprintd a finger that has a template, and removes it. -/
def enrolledAgain : List Served :=
  (daemon plainMac plainAccounts).run (plainState [plainTemplate 1 7 7])
    [{ call := .fprintdEnroll [2] [], env := calmEnv 1 [] }, { call := .removeFinger 1 [0x37], env := calmEnv 2 [] }]

/-- The finger is still enrolled after it was removed. -/
theorem removed_finger_remains :
    Unique (plainState [plainTemplate 1 7 7]).enrollments ∧
    ¬ Throughout enrolledAgain fun _ event => FingersUnique event := by
  refine ⟨List.pairwise_singleton _ _, fun all => ?_⟩
  have left : ∃ event ∈ enrolledAgain, event.input.call.removes = some (1, 7) ∧ event.outcome.removed = true ∧
      ∃ enrolled ∈ event.after.enrollments, enrolled.uid = 1 ∧ enrolled.finger = 7 := by decide +kernel
  obtain ⟨event, inside, asked, removed, enrolled, kept, same⟩ := left
  exact (all.of_mem inside).2 1 7 asked removed enrolled kept same

end Hiya.Daemon
