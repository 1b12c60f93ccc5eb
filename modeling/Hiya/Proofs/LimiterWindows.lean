import Hiya.Library.Ring
import Hiya.Proofs.RateLimits
import Hiya.Proofs.DaemonSpecimens

/-! The limiter of one user against what is promised of it: too many failures within the window
lock the user out, twice as long each time. The ring holds the last failures only, and a
failure that comes while a lockout is pending finds the old ones still there. -/

namespace Hiya.Daemon
open Library

/-- The failures since the last lockout, the end of that lockout, and how many there were. -/
structure Watch where
  failures : List Int
  lockedUntil : Int
  lockouts : Nat

namespace Watch

def start : Watch where
  failures := []
  lockedUntil := 0
  lockouts := 0

def within (config : Config) (now : Int) (time : Int) : Bool := now - time ≤ config.rateLimitWindowSeconds

/-- A failure that fills the window begins a lockout. -/
def record (config : Config) (now : Int) (watch : Watch) : Watch :=
  let failures := watch.failures ++ [now]
  if config.rateLimitMaxAttempts ≤ failures.countP (within config now) then
    { failures := []
      lockedUntil := now + min 3600 (config.rateLimitLockoutSeconds * 2 ^ min watch.lockouts 6 : Nat)
      lockouts := watch.lockouts + 1 }
  else { watch with failures }

/-- The answer to a check: denied with the seconds that are left, or not. -/
def answer (now : Int) (watch : Watch) : Option Int := if now < watch.lockedUntil then some (watch.lockedUntil - now)
    else none

end Watch

/-- The bounds of the configuration file. -/
structure Loaded (config : Config) : Prop where
  attempts : 2 ≤ config.rateLimitMaxAttempts ∧ config.rateLimitMaxAttempts ≤ 100
  lockout : 1 ≤ config.rateLimitLockoutSeconds ∧ config.rateLimitLockoutSeconds ≤ 3600
  window : 1 ≤ config.rateLimitWindowSeconds ∧ config.rateLimitWindowSeconds ≤ 3600

/-- A run of checks and failures of one user, from a table without an entry of theirs, with a
clock that does not go back. What others do in between leaves the entry in place. Failures
are recorded in states that the guard allows. -/
inductive Watched (config : Config) (uid : Uid) (guard : RateLimiter → Prop) : Int → RateLimiters → Watch → Prop
  | start (table : RateLimiters) (fresh : table.get uid = .fresh uid) : Watched config uid guard 0 table .start
  | elsewhere (run : Watched config uid guard clock table watch) (later : clock ≤ now)
    (kept : after.get uid = table.get uid) :
      Watched config uid guard now after watch
  | check (run : Watched config uid guard clock table watch) (later : clock ≤ now) :
      Watched config uid guard now (checkVerifyRateLimit now uid table).2 watch
  | record (run : Watched config uid guard clock table watch) (later : clock ≤ now) (allowed : guard (table.get uid)) :
      Watched config uid guard now (recordVerifyFailure config now uid table) (watch.record config now)

/-- No lockout is pending: there was none, or a check has come after its end. -/
def Settled (entry : RateLimiter) : Prop := entry.lockoutUntil = 0

section
variable {config : Config} {now clock : Int} {uid : Uid} {table : RateLimiters} {entry : RateLimiter} {watch : Watch}

theorem oldestFrom_lt {limit : Nat} (entries : List RateLimiter) : ∀ (best : Nat) (time : Int) (place : Nat), best < limit →
    place + entries.length ≤ limit → oldestFrom best time place entries < limit := by
  induction entries with
  | nil => exact fun best time place inside _ => inside
  | cons entry rest ih =>
    intro best time place inside room
    rw [List.length_cons] at room
    unfold oldestFrom
    split
    · exact ih place entry.latest (place + 1) (by omega) (by omega)
    · exact ih best time (place + 1) inside (by omega)

theorem oldest_lt {entries : List RateLimiter} (some : entries ≠ []) : oldest entries < entries.length := by
  cases entries with
  | nil => exact absurd rfl some
  | cons entry rest => exact oldestFrom_lt rest 0 entry.latest 1 (Nat.succ_pos _) (by rw [List.length_cons]; omega)

theorem find_set_fresh {entries : List RateLimiter} (absent : ∀ entry ∈ entries, entry.uid ≠ uid) {place : Nat}
    (inside : place < entries.length) :
    (entries.set place (.fresh uid)).find? (fun entry => entry.uid = uid) = some (.fresh uid) := by
  induction entries generalizing place with
  | nil => exact absurd inside (Nat.not_lt_zero _)
  | cons first rest ih =>
    obtain ⟨here, there⟩ := List.forall_mem_cons.mp absent
    cases place with
    | zero => exact List.find?_cons_of_pos (decide_eq_true rfl)
    | succ place =>
      rw [List.set_cons_succ, List.find?_cons_of_neg (by simpa using here)]
      exact ih there (Nat.lt_of_succ_lt_succ inside)

/-- A lookup of one's own entry keeps it, whoever has to make room. -/
theorem own_found (table : RateLimiters) (uid : Uid) : (findRateLimiter uid table).get uid = table.get uid ∧
    (findRateLimiter uid table).tracks uid := by
  by_cases room : table.HasRoom uid
  · exact ⟨get_find room uid, tracks_find room⟩
  · obtain ⟨untracked, full⟩ := not_or.mp room
    have absent : ¬ (table.entries.any fun entry => entry.uid = uid) = true := fun present => by
      obtain ⟨entry, inside, same⟩ := List.any_eq_true.mp present
      exact untracked ⟨entry, inside, of_decide_eq_true same⟩
    have some : table.entries ≠ [] := fun none => full (by rw [none]; exact Nat.succ_pos 127)
    have placed : (findRateLimiter uid table).entries = table.entries.set (oldest table.entries) (.fresh uid) := by
      unfold findRateLimiter
      rw [dif_neg absent, dif_neg full]
    have found : (findRateLimiter uid table).entries.find? (fun entry => entry.uid = uid) = Option.some (.fresh uid) := by
      rw [placed]
      exact find_set_fresh (fun entry inside same => untracked ⟨entry, inside, same⟩) (oldest_lt some)
    refine ⟨?_, RateLimiters.tracks_of_find found⟩
    rw [RateLimiters.get, RateLimiters.get, found, find_none_of_untracked untracked]
    rfl

/-- What a lookup and a change of one's own entry leave. -/
theorem own_changed (change : RateLimiter → RateLimiter) (same : ∀ entry, (change entry).uid = entry.uid)
    (table : RateLimiters) (uid : Uid) :
    ((findRateLimiter uid table).put (change ((findRateLimiter uid table).get uid))).get uid = change (table.get uid) := by
  obtain ⟨found, tracked⟩ := own_found table uid
  have named : (change (table.get uid)).uid = uid := (same _).trans (get_uid table uid)
  have stored := get_put_self (change (table.get uid)) (by rwa [named])
  rw [found]
  rwa [named] at stored

theorem own_checked (now : Int) (table : RateLimiters) (uid : Uid) :
    (checkVerifyRateLimit now uid table).2.get uid = (table.get uid).checked now := own_changed _ (checked_uid now) table uid

theorem own_recorded (config : Config) (now : Int) (table : RateLimiters) (uid : Uid) :
    (recordVerifyFailure config now uid table).get uid = (table.get uid).recorded config now :=
  own_changed _ (recorded_uid config now) table uid

theorem own_answer (now : Int) (table : RateLimiters) (uid : Uid) : (checkVerifyRateLimit now uid table).1 =
    if (table.get uid).lockoutUntil > now then some ((table.get uid).lockoutUntil - now) else none := by
  unfold checkVerifyRateLimit
  dsimp only
  rw [(own_found table uid).1]

theorem recent_eq (config : Config) (now : Int) (entry : RateLimiter) :
    entry.recent config now = ringCount entry.failures entry.failureCount (Watch.within config now) := by
  unfold RateLimiter.recent ringCount Watch.within
  refine List.countP_congr fun slot _ => ?_
  simp only [decide_eq_true_eq]

/-- The entry stands for what is watched: either nothing is pending and the ring holds the
failures, or a lockout is, which no failure has followed. -/
structure Stands (clock : Int) (entry : RateLimiter) (watch : Watch) : Prop where
  lockouts : entry.consecutiveLockouts = watch.lockouts
  past : ∀ time ∈ watch.failures, time ≤ clock
  sorted : watch.failures.Pairwise (· ≤ ·)
  positive : 0 ≤ clock
  held : (entry.lockoutUntil = 0 ∧ watch.lockedUntil ≤ clock ∧
    Ring entry.failures entry.failureCount entry.failureIdx watch.failures) ∨
    (0 < entry.lockoutUntil ∧ entry.lockoutUntil = watch.lockedUntil ∧ watch.failures = [])

theorem Stands.later (stands : Stands clock entry watch) (later : clock ≤ now) : Stands now entry watch where
  lockouts := stands.lockouts
  past time member := Int.le_trans (stands.past time member) later
  sorted := stands.sorted
  positive := Int.le_trans stands.positive later
  held := stands.held.imp_left fun free => ⟨free.1, Int.le_trans free.2.1 later, free.2.2⟩

theorem Stands.answer (stands : Stands now entry watch) :
    (if entry.lockoutUntil > now then some (entry.lockoutUntil - now) else none) = watch.answer now := by
  have positive := stands.positive
  unfold Watch.answer
  obtain ⟨free, elapsed, _⟩ | ⟨_, same, _⟩ := stands.held
  · rw [if_neg (by omega), if_neg (by omega)]
  · rw [same]

theorem Stands.checked (stands : Stands now entry watch) : Stands now (entry.checked now) watch := by
  have positive := stands.positive
  unfold RateLimiter.checked
  split
  · exact stands
  next elapsed =>
    split
    next pending =>
      obtain ⟨free, _⟩ | ⟨_, same, none⟩ := stands.held
      · omega
      · refine ⟨stands.lockouts, stands.past, stands.sorted, positive, Or.inl ⟨rfl, by omega, ?_⟩⟩
        rw [none]
        exact .empty _ 0 (Nat.zero_mod _)
    next => exact stands

/-- The failures within the window are the last ones, so the ring misses none below its size. -/
theorem Stands.recent (stands : Stands now entry watch)
    (ring : Ring entry.failures entry.failureCount entry.failureIdx watch.failures) :
    entry.recent config now = min (watch.failures.countP (Watch.within config now)) failureRing := by
  rw [recent_eq, ring.ringCount_eq]
  refine countP_last (stands.sorted.imp fun {first second} order inside => ?_) failureRing
  have near := of_decide_eq_true inside
  exact decide_eq_true (by omega)

theorem within_now (config : Config) (now : Int) : Watch.within config now now = true := decide_eq_true (by omega)

theorem Stands.recorded (loaded : Loaded config) (small : config.rateLimitMaxAttempts ≤ 33)
    (stands : Stands now entry watch) (settled : Settled entry) :
    Stands now (entry.recorded config now) (watch.record config now) := by
  have ring : Ring entry.failures entry.failureCount entry.failureIdx watch.failures ∧ watch.lockedUntil ≤ now := by
    obtain ⟨_, elapsed, ring⟩ | ⟨pending, _⟩ := stands.held
    · exact ⟨ring, elapsed⟩
    · rw [settled] at pending
      exact absurd pending (Int.lt_irrefl 0)
  have total : (watch.failures ++ [now]).countP (Watch.within config now) =
    watch.failures.countP (Watch.within config now) + 1 := by
    rw [List.countP_append, List.countP_singleton, if_pos (within_now config now)]
  have recent : entry.recent config now = min (watch.failures.countP (Watch.within config now)) failureRing :=
    stands.recent ring.1
  have slots : failureRing = 32 := rfl
  have positive := stands.positive
  have stepped : ∀ time ∈ watch.failures ++ [now], time ≤ now := fun time member => by
    obtain earlier | last := List.mem_append.mp member
    · exact stands.past time earlier
    · exact Int.le_of_eq (List.mem_singleton.mp last)
  have ordered : (watch.failures ++ [now]).Pairwise (· ≤ ·) :=
    List.pairwise_append.mpr ⟨stands.sorted, List.pairwise_singleton _ _, fun time member other last =>
      List.mem_singleton.mp last ▸ stands.past time member⟩
  unfold RateLimiter.recorded Watch.record
  dsimp only
  rw [total, recent]
  by_cases reached : config.rateLimitMaxAttempts ≤ watch.failures.countP (Watch.within config now) + 1
  · rw [if_pos (by omega), if_pos reached]
    have same : entry.lockout config = min 3600 (config.rateLimitLockoutSeconds * 2 ^ min watch.lockouts 6) := by
      rw [RateLimiter.lockout, stands.lockouts, Nat.min_comm]
    have some : 1 ≤ entry.lockout config := by
      rw [same]
      exact Nat.le_min.mpr ⟨by decide, Nat.mul_pos loaded.lockout.1 (Nat.two_pow_pos _)⟩
    refine ⟨congrArg (· + 1) stands.lockouts, List.forall_mem_nil _, .nil, positive, Or.inr ⟨?_, ?_, rfl⟩⟩
    · dsimp only
      omega
    · dsimp only
      rw [same]
  · rw [if_neg (by omega), if_neg reached]
    refine ⟨stands.lockouts, stepped, ordered, positive, Or.inl ⟨settled, ring.2, ?_⟩⟩
    have count := ring.1.count_eq
    refine .push now ⟨entry.failureIdx % failureRing, Nat.mod_lt _ failureRing_pos⟩ (entry.failureIdx + 1) rfl rfl ?_ ring.1
    dsimp only
    split
    · omega
    · omega

/-- In a run whose failures all find nothing pending, the entry stands for what is watched. -/
theorem Watched.stands (loaded : Loaded config) (small : config.rateLimitMaxAttempts ≤ 33)
    (run : Watched config uid Settled clock table watch) :
    Stands clock (table.get uid) watch := by
  induction run with
  | start table fresh =>
    rw [fresh]
    exact ⟨rfl, List.forall_mem_nil _, .nil, Int.le_refl 0, Or.inl ⟨rfl, Int.le_refl 0, .empty _ 0 (Nat.zero_mod _)⟩⟩
  | elsewhere _ later kept stands =>
    rw [kept]
    exact stands.later later
  | check _ later stands =>
    rw [own_checked]
    exact (stands.later later).checked
  | record _ later allowed stands =>
    rw [own_recorded]
    exact (stands.later later).recorded loaded small allowed

/-- More failures than a full ring and one more are never counted. -/
theorem recorded_free (many : 33 < config.rateLimitMaxAttempts) (free : entry.lockoutUntil = 0) :
    (entry.recorded config now).lockoutUntil = 0 := by
  have most : entry.recent config now ≤ failureRing := by
    unfold RateLimiter.recent
    exact Nat.le_trans List.countP_le_length (Nat.le_of_eq List.length_finRange)
  have slots : failureRing = 32 := rfl
  unfold RateLimiter.recorded
  dsimp only
  rw [if_neg (by omega)]
  exact free

theorem Watched.free {guard : RateLimiter → Prop} (many : 33 < config.rateLimitMaxAttempts)
    (run : Watched config uid guard clock table watch) :
    (table.get uid).lockoutUntil = 0 ∧ 0 ≤ clock := by
  induction run with
  | start table fresh =>
    rw [fresh]
    exact ⟨rfl, Int.le_refl 0⟩
  | elsewhere _ later kept ih =>
    rw [kept]
    exact ⟨ih.1, Int.le_trans ih.2 later⟩
  | @check now _ _ _ _ later ih =>
    rw [own_checked]
    refine ⟨?_, Int.le_trans ih.2 later⟩
    unfold RateLimiter.checked
    rw [ih.1, if_neg (by have := ih.2; omega), if_neg (Int.lt_irrefl 0)]
    exact ih.1
  | record _ later _ ih =>
    rw [own_recorded]
    exact ⟨recorded_free many ih.1, Int.le_trans ih.2 later⟩

end

/-- Up to 33 attempts, in a run in which no failure is recorded while a lockout is pending, a
check is denied when and for as long as it is promised. With more attempts no check ever is. -/
theorem lockouts_keep_promise (config : Config) (loaded : Loaded config) (uid : Uid) :
    (config.rateLimitMaxAttempts ≤ 33 → ∀ (clock now : Int) (table : RateLimiters) (watch : Watch),
      Watched config uid Settled clock table watch → clock ≤ now →
      (checkVerifyRateLimit now uid table).1 = watch.answer now) ∧
    (33 < config.rateLimitMaxAttempts → ∀ (clock now : Int) (table : RateLimiters) (watch : Watch),
      Watched config uid (fun _ => True) clock table watch → clock ≤ now →
      (checkVerifyRateLimit now uid table).1 = none) := by
  constructor
  · intro small clock now table watch run later
    rw [own_answer]
    exact ((run.stands loaded small).later later).answer
  · intro many clock now table watch run later
    obtain ⟨free, positive⟩ := run.free many
    rw [own_answer, free, if_neg (by omega)]

/-- Two failures lock a user out. -/
def strictConfig : Config := { plainConfig with rateLimitMaxAttempts := 2 }

theorem strictConfig_loaded : Loaded strictConfig := ⟨by decide, by decide, by decide⟩

def twoFailures : RateLimiters := recordVerifyFailure strictConfig 8 1 (recordVerifyFailure strictConfig 7 1 .empty)

theorem twoFailures_watched : Watched strictConfig 1 Settled 8 twoFailures
    ((Watch.start.record strictConfig 7).record strictConfig 8) :=
  .record (.record (.start .empty rfl) (by decide) rfl) (by decide) rfl

theorem lockouts_keep_promise_strict : Loaded strictConfig ∧ (checkVerifyRateLimit 10 1 twoFailures).1 = some 28 :=
  ⟨strictConfig_loaded, (lockouts_keep_promise strictConfig strictConfig_loaded 1).1 (by decide)
    8 10 twoFailures _ twoFailures_watched (by decide)⟩

def patientConfig : Config := { plainConfig with rateLimitMaxAttempts := 40 }

theorem patientConfig_loaded : Loaded patientConfig := ⟨by decide, by decide, by decide⟩

def afterFailures (config : Config) (now : Int) (count : Nat) : Watch :=
  (List.replicate count now).foldl (fun watch now => Watch.record config now watch) .start

theorem failures_watched (config : Config) (uid : Uid) (now : Int) (positive : 0 ≤ now) (count : Nat) :
    ∃ table, Watched config uid (fun _ => True) now table (afterFailures config now count) := by
  induction count with
  | zero => exact ⟨.empty, .elsewhere (.start .empty rfl) positive rfl⟩
  | succ count ih =>
    obtain ⟨table, run⟩ := ih
    rw [afterFailures, List.replicate_succ', List.foldl_append]
    exact ⟨_, .record run (Int.le_refl now) trivial⟩

/-- The ring has no room for forty failures, so they never lock anybody out. -/
theorem forty_failures_pass : ¬ ∀ (config : Config) (uid : Uid) (clock now : Int) (table : RateLimiters)
    (watch : Watch), Loaded config →
    Watched config uid (fun _ => True) clock table watch → clock ≤ now →
    (checkVerifyRateLimit now uid table).1 = watch.answer now := by
  intro always
  obtain ⟨table, run⟩ := failures_watched patientConfig 1 7 (by decide) 40
  have promised := always patientConfig 1 7 7 table _ patientConfig_loaded run (Int.le_refl 7)
  have free := (run.free (by decide)).1
  have locked : (afterFailures patientConfig 7 40).answer 7 = some 30 := by decide +kernel
  rw [locked, own_answer, free] at promised
  cases promised

end Hiya.Daemon
