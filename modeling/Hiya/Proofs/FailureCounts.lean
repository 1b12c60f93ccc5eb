import Hiya.Proofs.Attempts

/-! Failed guesses are counted against the user whose templates were tried, and only a
match of their own clears their record, unless root verifies the session of somebody
else, the TPM policy denies the guess after the sensor has answered, or another entry
has to make room. -/

namespace Hiya.Daemon
open Library

/-- An entry that has not been reset: a failure was recorded in it, or nothing but the
check has touched it. -/
def Unreset (env : Env) (config : Config) (entry after : RateLimiter) : Prop :=
  after = entry ∨ after = entry.checked env.checkedAt ∨ after = (entry.checked env.checkedAt).recorded config env.recordedAt

def NoMatch (comparisons : List Comparison) (uid : Uid) : Prop :=
  ∀ made ∈ comparisons, made.template.uid = uid → made.matched = false

/-- A call is accounted for in the limiters. -/
structure Accounted (event : Event State Request Outcome) : Prop where
  /-- A user whose templates were tried in vain has one failure more. -/
  charged : ∀ uid, (∃ made ∈ event.outcome.comparisons, made.template.uid = uid) → NoMatch event.outcome.comparisons uid →
    event.after.limiters.get uid =
      ((event.before.limiters.get uid).checked event.input.env.checkedAt).recorded event.before.config event.input.env.recordedAt
  /-- A user none of whose templates matched has not been reset. -/
  kept : ∀ uid, NoMatch event.outcome.comparisons uid →
    Unreset event.input.env event.before.config (event.before.limiters.get uid) (event.after.limiters.get uid)

/-- A call whose attempt is accounted for: it goes under the user whose templates it
tries, the policy does not deny a guess that was made, and the table has room. -/
structure Accountable (accounts : Accounts) (request : Request) (d : State) : Prop where
  own : ∀ attempt, attemptOf accounts request d = some attempt → attempt.Reaches request.env d → attempt.key = attempt.who
  policy : ∀ attempt, attemptOf accounts request d = some attempt → ¬ attempt.DeniedGuess request.env d
  room : ∀ attempt, attemptOf accounts request d = some attempt → d.limiters.HasRoom attempt.key

section
variable {env : Env} {d : State} {attempt : Attempt} {comparisons : List Comparison} {success : Bool}
    {limiters : RateLimiters}

theorem Asked.uid_eq (asked : Asked env d attempt comparisons) {made : Comparison} (inside : made ∈ comparisons) :
    made.template.uid = attempt.who := by simpa [State.enrollmentsOf] using (List.mem_filter.mp (asked.own made inside)).2

theorem checked_room (room : d.limiters.HasRoom attempt.key) :
    (checkVerifyRateLimit env.checkedAt attempt.key d.limiters).2.HasRoom attempt.key :=
    .inl (check_tracks env.checkedAt room)

/-- The entry of a user after the check and a recorded failure. -/
theorem recorded_get (room : d.limiters.HasRoom attempt.key) (uid : Uid) :
    (recordVerifyFailure d.config env.recordedAt attempt.key
      (checkVerifyRateLimit env.checkedAt attempt.key d.limiters).2).get uid =
      if uid = attempt.key then ((d.limiters.get uid).checked env.checkedAt).recorded d.config env.recordedAt
      else d.limiters.get uid := by
  rw [record_get d.config env.recordedAt (checked_room room) uid]
  split
  next same => rw [check_get env.checkedAt room, if_pos rfl, same]
  next other => rw [check_get env.checkedAt room, if_neg other]

theorem Tried.charges (tried : Tried env d attempt comparisons success limiters) (room : d.limiters.HasRoom attempt.key)
    (own : attempt.Reaches env d → attempt.key = attempt.who) (policy : ¬ attempt.DeniedGuess env d) {uid : Uid}
    (guessed : ∃ made ∈ comparisons, made.template.uid = uid) (unmatched : NoMatch comparisons uid) :
    limiters.get uid = ((d.limiters.get uid).checked env.checkedAt).recorded d.config env.recordedAt := by
  obtain ⟨made, inside, named⟩ := guessed
  have some? : comparisons ≠ [] := List.ne_nil_of_mem inside
  have all (asked : Asked env d attempt comparisons) (other : Comparison) (listed : other ∈ comparisons) :
      other.matched = false := by
    apply unmatched other listed
    rw [asked.uid_eq listed, ← named, asked.uid_eq inside]
  cases tried with
  | refused => cases inside
  | stopped => cases inside
  | denied asked guess => exact absurd (guess some? (all asked)) policy
  | failed asked =>
    have same : uid = attempt.key := by rw [own (asked.reaches some?), ← named, asked.uid_eq inside]
    rw [recorded_get room, if_pos same]
  | matched asked hit free =>
    obtain ⟨other, listed, yes⟩ := hit
    rw [all asked other listed] at yes
    cases yes

theorem Tried.keeps (tried : Tried env d attempt comparisons success limiters) (room : d.limiters.HasRoom attempt.key)
    (own : attempt.Reaches env d → attempt.key = attempt.who) {uid : Uid} (unmatched : NoMatch comparisons uid) :
    Unreset env d.config (d.limiters.get uid) (limiters.get uid) := by
  have checked : Unreset env d.config (d.limiters.get uid)
      ((checkVerifyRateLimit env.checkedAt attempt.key d.limiters).2.get uid) := by
    rw [check_get env.checkedAt room]
    split
    next same => exact .inr (.inl (by rw [same]))
    next other => exact .inl rfl
  cases tried with
  | refused => exact .inl rfl
  | stopped => exact checked
  | denied asked guess => exact checked
  | failed asked =>
    rw [recorded_get room]
    split
    · exact .inr (.inr rfl)
    · exact .inl rfl
  | matched asked hit free =>
    obtain ⟨made, inside, yes⟩ := hit
    have other : uid ≠ attempt.key := by
      intro same
      have no := unmatched made inside
        (by rw [asked.uid_eq inside, ← own (asked.reaches (List.ne_nil_of_mem inside)), same])
      rw [yes] at no
      cases no
    rw [reset_get_other (checked_room room) other]
    exact checked

end

/-- In every run whose calls are accountable, each of them is accounted for. -/
theorem guesses_are_counted (mac : Buf 32 → Bytes → Buf 32) (accounts : Accounts) (start : State) (requests : List Request)
    (accountable : Throughout ((daemon mac accounts).run start requests) fun _ event =>
      event.input.call.verifies = true → Accountable accounts event.input event.before) :
    Throughout ((daemon mac accounts).run start requests) fun _ event =>
      event.input.call.verifies = true → Accounted event := by
  refine Machine.run_throughout (fun _ _ => True) (fun _ _ _ _ _ => trivial) ?_ trivial accountable
  intro past d request _ condition verifies
  obtain ⟨own, policy, room⟩ := condition verifies
  rcases serve_tried mac accounts d verifies with ⟨attempt, success, known, tried⟩ | ⟨silent, same⟩
  · constructor
    · exact fun uid => tried.charges (room attempt known) (own attempt known) (policy attempt known)
    · exact fun uid => tried.keeps (room attempt known) (own attempt known)
  · constructor
    · rintro uid ⟨made, inside, -⟩
      have nothing : made ∈ ([] : List Comparison) := silent ▸ inside
      cases nothing
    · intro uid _
      exact .inl (congrArg (fun table => RateLimiters.get table uid) same)

theorem guesses_are_counted_stranger :
    Throughout ((daemon plainMac plainAccounts).run (plainState [plainTemplate 1 1 7]) [strangerRequest])
      (fun _ event => event.input.call.verifies = true → Accounted event) ∧
    ((daemon plainMac plainAccounts).run (plainState [plainTemplate 1 1 7]) [strangerRequest]).all
      (fun event => event.outcome.comparisons = [{ template := plainTemplate 1 1 7, matched := false }]) = true := by
  refine ⟨guesses_are_counted plainMac plainAccounts (plainState [plainTemplate 1 1 7]) [strangerRequest] ?_,
    by decide +kernel⟩
  have same : (daemon plainMac plainAccounts).run (plainState [plainTemplate 1 1 7]) [strangerRequest] =
      [(daemon plainMac plainAccounts).event (plainState [plainTemplate 1 1 7]) strangerRequest] := rfl
  rw [same]
  refine .cons (fun _ => ?_) (.nil _ _)
  have made : ∀ attempt, attemptOf plainAccounts strangerRequest (plainState [plainTemplate 1 1 7]) = some attempt →
      attempt = { key := 1, who := 1, locks := fun _ => true } := by
    intro attempt known
    exact (Option.some.inj known).symm
  constructor
  · intro attempt known _
    rw [made attempt known]
  · rintro attempt known ⟨⟨number, template, found, withheld⟩, -⟩
    rw [made attempt known] at found withheld
    have listed : template ∈ [plainTemplate 1 1 7] := (List.mem_filter.mp (List.mem_of_getElem? found)).1
    rw [List.mem_singleton.mp listed] at withheld
    cases withheld
  · exact fun attempt _ => .inr (Nat.zero_lt_succ 127)

def deniedState : State := { plainState [sealedTemplate 1 1 7, plainTemplate 1 2 8] with tpmAvailable := true }

theorem denied_guess_is_free :
    ¬ ∀ (mac : Buf 32 → Bytes → Buf 32) (accounts : Accounts) (start : State) (requests : List Request),
      Throughout ((daemon mac accounts).run start requests) fun _ event => event.input.call.verifies = true →
      Accounted event := by
  intro claimed
  have all := claimed plainMac plainAccounts deniedState [strangerRequest]
  have seen : ((daemon plainMac plainAccounts).run deniedState [strangerRequest]).any (fun event =>
      event.input.call.verifies && event.outcome.comparisons = [{ template := plainTemplate 1 2 8, matched := false }] &&
        (event.after.limiters.get 1).failureCount = 0 &&
        (((event.before.limiters.get 1).checked event.input.env.checkedAt).recorded event.before.config
          event.input.env.recordedAt).failureCount = 1) = true := by decide +kernel
  obtain ⟨event, inside, shape⟩ := List.any_eq_true.mp seen
  simp only [Bool.and_eq_true, decide_eq_true_eq] at shape
  obtain ⟨⟨⟨verifies, asked⟩, free⟩, one⟩ := shape
  have charged := (all.of_mem inside verifies).charged 1
  rw [asked] at charged
  have counted := charged ⟨_, List.mem_singleton_self _, rfl⟩ fun made listed _ => by
    rw [List.mem_singleton.mp listed]
  rw [counted, one] at free
  cases free

end Hiya.Daemon
