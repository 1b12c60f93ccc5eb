import Hiya.Library.Ends
import Hiya.Proofs.EnrollmentRecords
import Mathlib.Data.List.TakeWhile

/-! What loading the enrolments comes to, wherever the walk stops. A walk that fails says so, but its
count tells how far it came, and the daemon makes as many empty enrolments of that. -/

namespace Hiya.Daemon
open Library
open Fido2 (Takes takes_nat)

section
variable (mac : Buf 32 → Bytes → Buf 32) (grows : Nat → Bool)

/-- The complete records in what the MAC of a file vouches for, whether or not the daemon gets
to compute it. -/
def records (entry : DirEntry) : List Enrollment :=
  match openedFile entry with
  | .ok (some (uid, file, key)) => if (mac key file.body).bytes = file.trailer then recordsIn uid file.body else []
  | _ => []

def deliveredRecords (entry : DirEntry) : List Enrollment :=
  match authenticFile mac entry with
  | .ok (some (uid, file)) => recordsIn uid file.delivered
  | _ => []

/-- A walk that fails leaves nothing, and one that does not leaves what there is. -/
structure FaithfulLoad (entries : List DirEntry) (result : LoadResult) : Prop where
  failed : result.code ≠ .ok → result.enrollments = none ∧ result.count = 0
  loaded : result.code = .ok → result.enrollments.getD [] = entries.flatMap (records mac) ∧
    result.count = (entries.flatMap (records mac)).length

/-- Every enrolment in use is one that was read from an authenticated file. -/
def AuthenticTable (entries : List DirEntry) (table : EnrollmentTable) : Prop :=
  ∀ index < table.count, ∃ enrolled ∈ entries.flatMap (records mac), table.slots.bind (·[index]?) = some enrolled

def tries (uid : Uid) : Nat → Bytes → List Bool
  | 0, _ => []
  | count + 1, bytes =>
    match readEnrollment uid bytes with
    | (.ok _, rest) => true :: tries uid count rest
    | (.error _, _) => [false]

def entryTries (entry : DirEntry) : List Bool :=
  match authenticFile mac entry with
  | .ok (some (uid, file)) =>
    match takeHeader file.delivered with
    | (.ok count, rest) => tries uid count rest
    | (.error _, _) => []
  | _ => []

def asked : Nat → Nat → List Bool → List Nat
  | _, _, [] => []
  | held, capacity, complete :: rest =>
    if capacity ≤ held then (capacity * 2) :: asked (held + complete.toNat) (capacity * 2) rest
    else asked (held + complete.toNat) capacity rest

def roomAfter : Nat → Nat → List Bool → Nat
  | _, capacity, [] => capacity
  | held, capacity, complete :: rest =>
    roomAfter (held + complete.toNat) (if capacity ≤ held then capacity * 2 else capacity) rest

private theorem asked_append (first second : List Bool) : ∀ held capacity, asked held capacity (first ++ second) =
    asked held capacity first ++ asked (held + first.count true) (roomAfter held capacity first) second := by
  induction first with
  | nil => exact fun _ _ => rfl
  | cons complete first ih =>
    intro held capacity
    have counted : held + (complete :: first).count true = held + complete.toNat + first.count true := by
      cases complete
      · simp
      · simp only [List.count_cons_self, Bool.toNat_true]
        omega
    rw [List.cons_append, asked, asked, roomAfter, counted]
    split
    · rw [ih, List.cons_append]
    · rw [ih]

private theorem roomAfter_append (first second : List Bool) : ∀ held capacity, roomAfter held capacity (first ++ second) =
    roomAfter (held + first.count true) (roomAfter held capacity first) second := by
  induction first with
  | nil => exact fun _ _ => rfl
  | cons complete first ih =>
    intro held capacity
    have counted : held + (complete :: first).count true = held + complete.toNat + first.count true := by
      cases complete
      · simp
      · simp only [List.count_cons_self, Bool.toNat_true]
        omega
    rw [List.cons_append, roomAfter, roomAfter, ih, counted]

private theorem tries_count (uid : Uid) (count : Nat) : ∀ bytes,
    (tries uid count bytes).count true = (readEnrollments uid count bytes).length := by
  induction count with
  | zero => exact fun _ => rfl
  | succ count ih =>
    intro bytes
    unfold tries readEnrollments
    rcases readEnrollment uid bytes with ⟨problem | enrolled, rest⟩
    · rfl
    · dsimp only
      rw [List.count_cons_self, List.length_cons, ih]

structure Roomy (loader : Loader) : Prop where
  some : 0 < loader.capacity
  fits : loader.records.length ≤ loader.capacity

/-- The room for one record more. -/
def Loader.next (loader : Loader) : Nat := if loader.capacity ≤ loader.records.length then loader.capacity * 2
    else loader.capacity

theorem Roomy.next {loader : Loader} (roomy : Roomy loader) : loader.records.length < loader.next := by
  have some := roomy.some
  have fits := roomy.fits
  unfold Loader.next
  split
  · omega
  · omega

private theorem makeRoom_eq (loader : Loader) : makeRoom grows loader =
    if loader.capacity ≤ loader.records.length ∧ grows (loader.capacity * 2) = false then (.error .noMem, loader)
    else (.ok (), { loader with capacity := loader.next }) := by
  unfold makeRoom Loader.next
  simp only [Proc.bind_apply, Proc.get_apply]
  by_cases full : loader.capacity ≤ loader.records.length
  · cases granted : grows (loader.capacity * 2) <;> simp [full]
  · simp [full]

private theorem asked_cons (loader : Loader) (complete : Bool) (rest : List Bool) :
    asked loader.records.length loader.capacity (complete :: rest) =
      (if loader.capacity ≤ loader.records.length then [loader.capacity * 2] else []) ++
        asked (loader.records.length + complete.toNat) loader.next rest := by
  rw [asked]
  unfold Loader.next
  split
  · rfl
  · rfl

def Granted (loader : Loader) (attempts : List Bool) : Prop :=
  ∀ capacity ∈ asked loader.records.length loader.capacity attempts, grows capacity = true

private theorem granted_cons {loader : Loader} {complete : Bool} {rest : List Bool} :
    Granted grows loader (complete :: rest) ↔
    ¬ (loader.capacity ≤ loader.records.length ∧ grows (loader.capacity * 2) = false) ∧
      ∀ capacity ∈ asked (loader.records.length + complete.toNat) loader.next rest, grows capacity = true := by
  unfold Granted
  rw [asked_cons]
  simp only [List.forall_mem_append]
  refine and_congr_left fun _ => ?_
  split
  · rename_i full
    simp [full]
  · rename_i room
    simp [room]

private theorem readRecords_ends (uid : Uid) (count : Nat) : ∀ bytes loader, Roomy loader →
    (Granted grows loader (tries uid count bytes) → readRecords grows uid count bytes loader = (.ok (), {
      records := loader.records ++ readEnrollments uid count bytes
      capacity := roomAfter loader.records.length loader.capacity (tries uid count bytes) })) ∧
    (¬ Granted grows loader (tries uid count bytes) →
      ∃ last, readRecords grows uid count bytes loader = (.error .noMem, last) ∧ last.records ≠ []) := by
  induction count with
  | zero =>
    intro bytes loader _
    refine ⟨fun _ => ?_, fun never => absurd nofun never⟩
    rw [readEnrollments, List.append_nil]
    rfl
  | succ count ih =>
    intro bytes loader roomy
    by_cases refused : loader.capacity ≤ loader.records.length ∧ grows (loader.capacity * 2) = false
    · have some : loader.records ≠ [] := by
        rintro none
        have full := refused.1
        rw [none, List.length_nil] at full
        exact absurd roomy.some (Nat.not_lt.mpr full)
      have stops : readRecords grows uid (count + 1) bytes loader = (.error .noMem, loader) := by
        rw [readRecords]
        apply Proc.bind_of_error
        rw [makeRoom_eq, if_pos refused]
      have tried : ∃ complete rest, tries uid (count + 1) bytes = complete :: rest := by
        unfold tries
        split
        · exact ⟨_, _, rfl⟩
        · exact ⟨_, _, rfl⟩
      obtain ⟨complete, rest, shape⟩ := tried
      refine ⟨fun granted => ?_, fun _ => ⟨loader, stops, some⟩⟩
      rw [shape, granted_cons] at granted
      exact absurd refused granted.1
    · have room : makeRoom grows loader = (.ok (), { loader with capacity := loader.next }) :=
        by rw [makeRoom_eq, if_neg refused]
      rw [readRecords, Proc.bind_of_ok room]
      unfold tries readEnrollments
      rcases readEnrollment uid bytes with ⟨problem | enrolled, rest⟩
      · dsimp only
        rw [granted_cons]
        refine ⟨fun _ => ?_, fun never => absurd ⟨refused, nofun⟩ never⟩
        rw [List.append_nil, roomAfter]
        rfl
      · have further : Roomy ⟨loader.records ++ [enrolled], loader.next⟩ := by
          have next := roomy.next
          refine ⟨Nat.zero_lt_of_lt next, ?_⟩
          rw [List.length_append, List.length_singleton]
          exact next
        obtain ⟨goes, stops⟩ := ih rest ⟨loader.records ++ [enrolled], loader.next⟩ further
        have same : Granted grows loader (true :: tries uid count rest) ↔
            Granted grows ⟨loader.records ++ [enrolled], loader.next⟩ (tries uid count rest) := by
          rw [granted_cons, and_iff_right refused]
          unfold Granted
          rw [List.length_append, List.length_singleton]
          rfl
        dsimp only
        rw [same, Proc.bind_of_ok (Proc.modify_apply _ _)]
        refine ⟨fun granted => ?_, stops⟩
        dsimp only
        rw [goes granted, roomAfter, List.append_assoc, List.length_append, List.length_singleton]
        rfl

/-- The loader after some attempts that brought some records. -/
def Loader.after (loader : Loader) (more : List Enrollment) (attempts : List Bool) : Loader :=
  ⟨loader.records ++ more, roomAfter loader.records.length loader.capacity attempts⟩

private theorem roomAfter_fits (attempts : List Bool) : ∀ held capacity, 0 < capacity → held ≤ capacity →
    0 < roomAfter held capacity attempts ∧ held + attempts.count true ≤ roomAfter held capacity attempts := by
  induction attempts with
  | nil => exact fun _ _ some fits => ⟨some, fits⟩
  | cons complete attempts ih =>
    intro held capacity some fits
    have counted : held + (complete :: attempts).count true = held + complete.toNat + attempts.count true := by
      cases complete
      · simp
      · simp only [List.count_cons_self, Bool.toNat_true]
        omega
    have one : complete.toNat ≤ 1 := Bool.toNat_le complete
    rw [roomAfter, counted]
    split
    · exact ih _ _ (by omega) (by omega)
    · exact ih _ _ some (by omega)

theorem Roomy.after {loader : Loader} (roomy : Roomy loader) {more : List Enrollment} {attempts : List Bool}
    (brought : attempts.count true = more.length) : Roomy (loader.after more attempts) := by
  obtain ⟨some, fits⟩ := roomAfter_fits attempts _ _ roomy.some roomy.fits
  refine ⟨some, ?_⟩
  rw [brought] at fits
  exact (List.length_append ..).trans_le fits

private theorem granted_append {loader : Loader} {more : List Enrollment} {first second : List Bool}
    (brought : first.count true = more.length) :
    Granted grows loader (first ++ second) ↔ Granted grows loader first ∧ Granted grows (loader.after more first) second := by
  unfold Granted
  rw [asked_append, List.forall_mem_append, brought]
  simp only [Loader.after, List.length_append]

def Refused (entry : DirEntry) : Prop := ∃ code, authenticFile mac entry = .error code

private theorem entryTries_count (entry : DirEntry) : (entryTries mac entry).count true =
    (deliveredRecords mac entry).length := by
  unfold entryTries deliveredRecords recordsIn
  split
  · rcases takeHeader _ with ⟨problem | count, rest⟩
    · rfl
    · exact tries_count _ _ _
  · rfl

private theorem loadEntry_ends {entry : DirEntry} (heard : ¬ Refused mac entry) {loader : Loader} (roomy : Roomy loader) :
    (Granted grows loader (entryTries mac entry) →
      loadEntry mac grows entry loader = (.ok (), loader.after (deliveredRecords mac entry) (entryTries mac entry))) ∧
    (¬ Granted grows loader (entryTries mac entry) → ∃ last, loadEntry mac grows entry loader = (.error .noMem, last) ∧
    last.records ≠ []) := by
  have same : (loader.after [] []) = loader := by rw [Loader.after, List.append_nil]; rfl
  unfold loadEntry entryTries deliveredRecords recordsIn
  rcases outcome : authenticFile mac entry with code | _ | ⟨uid, file⟩
  · exact absurd ⟨code, outcome⟩ heard
  · exact ⟨fun _ => congrArg (Prod.mk _) same.symm, fun never => absurd nofun never⟩
  · dsimp only
    rcases takeHeader file.delivered with ⟨problem | count, rest⟩
    · exact ⟨fun _ => congrArg (Prod.mk _) same.symm, fun never => absurd nofun never⟩
    · exact readRecords_ends grows uid count rest loader roomy

private theorem walk_ends (entries : List DirEntry) : ∀ loader, Roomy loader → (∀ entry ∈ entries, ¬ Refused mac entry) →
    (Granted grows loader (entries.flatMap (entryTries mac)) → Proc.each (loadEntry mac grows) entries loader =
      (.ok (), loader.after (entries.flatMap (deliveredRecords mac)) (entries.flatMap (entryTries mac)))) ∧
    (¬ Granted grows loader (entries.flatMap (entryTries mac)) →
      ∃ last, Proc.each (loadEntry mac grows) entries loader = (.error .noMem, last) ∧ last.records ≠ []) := by
  induction entries with
  | nil =>
    intro loader _ _
    refine ⟨fun _ => ?_, fun never => absurd nofun never⟩
    rw [List.flatMap_nil, List.flatMap_nil, Loader.after, List.append_nil]
    rfl
  | cons entry entries ih =>
    intro loader roomy heard
    have brought := entryTries_count mac entry
    obtain ⟨goes, stops⟩ := loadEntry_ends mac grows (heard entry List.mem_cons_self) roomy
    rw [List.flatMap_cons, List.flatMap_cons, granted_append grows brought, Proc.each]
    by_cases here : Granted grows loader (entryTries mac entry)
    · obtain ⟨further, broken⟩ := ih _ (roomy.after brought) fun other inside => heard other (List.mem_cons_of_mem _ inside)
      rw [Proc.bind_of_ok (goes here), and_iff_right here]
      refine ⟨fun granted => ?_, broken⟩
      rw [further granted]
      unfold Loader.after
      rw [List.append_assoc, roomAfter_append, brought, List.length_append]
    · obtain ⟨last, failed, some⟩ := stops here
      rw [Proc.bind_of_error failed]
      exact ⟨fun granted => absurd granted.1 here, fun _ => ⟨last, rfl, some⟩⟩

theorem Refused.code_ne {entry : DirEntry} {code : LoadCode} (refused : authenticFile mac entry = .error code) :
    code ≠ .ok := by
  have stopped : openedFile entry = .error code := by
    unfold authenticFile at refused
    split at refused
    next failed =>
      cases refused
      exact failed
    next => cases refused
    next =>
      split at refused
      · cases refused
      · cases refused
  unfold openedFile at stopped
  repeat' first | cases stopped | split at stopped
  all_goals exact nofun

def Loader.start : Loader := ⟨[], 16⟩

private theorem roomy_start : Roomy Loader.start := ⟨by decide, by decide⟩

/-- A walk that meets no refusal ends well exactly if the array can grow as it has to. -/
theorem load_heard {entries : List DirEntry} (heard : ∀ entry ∈ entries, ¬ Refused mac entry) :
    (Granted grows .start (entries.flatMap (entryTries mac)) → bioDaemonLoadEnrollments mac grows true (some entries) =
      ⟨.ok, some (entries.flatMap (deliveredRecords mac)), (entries.flatMap (deliveredRecords mac)).length⟩) ∧
    (¬ Granted grows .start (entries.flatMap (entryTries mac)) →
      (bioDaemonLoadEnrollments mac grows true (some entries)).code = .noMem ∧
        (bioDaemonLoadEnrollments mac grows true (some entries)).count ≠ 0) := by
  obtain ⟨goes, stops⟩ := walk_ends mac grows entries .start roomy_start heard
  refine ⟨fun granted => ?_, fun missing => ?_⟩
  · have walked := goes granted
    unfold Loader.start at walked
    simp only [bioDaemonLoadEnrollments, Bool.not_true, Bool.false_eq_true, if_false, walked, Loader.after, List.nil_append]
  · obtain ⟨last, walked, some⟩ := stops missing
    unfold Loader.start at walked
    simp only [bioDaemonLoadEnrollments, Bool.not_true, Bool.false_eq_true, if_false, walked]
    exact ⟨trivial, fun none => some (List.length_eq_zero_iff.mp none)⟩

/-- A refusal ends the walk, with the count of what was loaded before. -/
theorem load_refused (back : List DirEntry) {front : List DirEntry} {entry : DirEntry}
    (heard : ∀ other ∈ front, ¬ Refused mac other)
    (granted : Granted grows .start (front.flatMap (entryTries mac))) {code : LoadCode}
    (refused : authenticFile mac entry = .error code) :
    bioDaemonLoadEnrollments mac grows true (some (front ++ entry :: back)) =
      ⟨code, none, (front.flatMap (deliveredRecords mac)).length⟩ := by
  have walked := (walk_ends mac grows front .start roomy_start heard).1 granted
  have stopped (loader : Loader) : loadEntry mac grows entry loader = (.error code, loader) := by
    unfold loadEntry
    rw [refused]
    rfl
  unfold Loader.start at walked
  simp only [bioDaemonLoadEnrollments, Bool.not_true, Bool.false_eq_true, if_false, Proc.each_append]
  rw [Proc.bind_of_ok walked, Proc.each, Proc.bind_of_error (stopped _)]
  simp only [Loader.after, List.nil_append]

private theorem createTable_count (tableGranted : Bool) (result : LoadResult) :
    (createTable tableGranted result).count = result.count := by
  unfold createTable
  split
  · rfl
  · split
    · rfl
    · rfl

/-- A faithful result makes a table of what was read. -/
theorem authentic_createTable {entries : List DirEntry} {result : LoadResult} (faithful : FaithfulLoad mac entries result)
    (tableGranted : Bool) : AuthenticTable mac entries (createTable tableGranted result) := by
  intro index inside
  rw [createTable_count] at inside
  by_cases well : result.code = .ok
  · obtain ⟨whole, counted⟩ := faithful.loaded well
    rw [counted] at inside
    obtain ⟨code, enrollments, count⟩ := result
    cases enrollments with
    | none =>
      have none : entries.flatMap (records mac) = [] := whole.symm
      rw [none] at inside
      cases inside
    | some enrollments =>
      obtain rfl : enrollments = entries.flatMap (records mac) := whole
      exact ⟨_, List.getElem_mem inside, List.getElem?_eq_getElem inside⟩
  · rw [(faithful.failed well).2] at inside
    cases inside

def isHeard (entry : DirEntry) : Bool :=
  match authenticFile mac entry with
  | .error _ => false
  | .ok _ => true

def heardOf (entries : List DirEntry) : List DirEntry := entries.takeWhile (isHeard mac)

/-- What a walk needs: all the room it asks for; of every file, the records of what its MAC vouches
for and no others, both where the MAC cannot be computed and the file is dropped, or taken for its
zeros, and in the second reading; and no refusal once it has loaded something. -/
structure QuietLoad (entries : List DirEntry) : Prop where
  granted : Granted grows .start ((heardOf mac entries).flatMap (entryTries mac))
  undisturbed : ∀ entry ∈ heardOf mac entries, deliveredRecords mac entry = records mac entry
  early : (∃ entry ∈ entries, Refused mac entry) → ∀ entry ∈ heardOf mac entries, records mac entry = []

private theorem isHeard_iff {entry : DirEntry} : isHeard mac entry = true ↔ ¬ Refused mac entry := by
  unfold isHeard Refused
  cases authenticFile mac entry <;> simp

private theorem not_refused_of_heard {entries : List DirEntry} : ∀ entry ∈ heardOf mac entries, ¬ Refused mac entry :=
  fun _ inside => (isHeard_iff mac).mp (List.mem_takeWhile_imp inside)

/-- A refusal is met behind the entries that are heard. -/
theorem heardOf_split {entries : List DirEntry} (some : ∃ entry ∈ entries, Refused mac entry) :
    ∃ entry back code, entries = heardOf mac entries ++ entry :: back ∧ authenticFile mac entry = .error code := by
  have parts := List.takeWhile_append_dropWhile (p := isHeard mac) (l := entries)
  cases rest : entries.dropWhile (isHeard mac) with
  | nil =>
    obtain ⟨entry, inside, refused⟩ := some
    exact absurd refused ((isHeard_iff mac).mp (List.dropWhile_eq_nil_iff.mp rest entry inside))
  | cons entry back =>
    have stopped : isHeard mac entry = false := by
      have some : entries.dropWhile (isHeard mac) ≠ [] := by
        rw [rest]
        exact List.cons_ne_nil _ _
      have head := List.head_dropWhile_not (isHeard mac) some
      simpa only [rest, List.head_cons] using head
    rw [rest] at parts
    have refused : Refused mac entry := by
      by_contra heard
      rw [(isHeard_iff mac).mpr heard] at stopped
      cases stopped
    obtain ⟨code, failed⟩ := refused
    exact ⟨entry, back, code, parts.symm, failed⟩

private theorem heardOf_append {front back : List DirEntry} : heardOf mac (front ++ back) =
    if (heardOf mac front).length = front.length then front ++ heardOf mac back else heardOf mac front :=
    List.takeWhile_append

private theorem flatMap_delivered {entries : List DirEntry}
    (undisturbed : ∀ entry ∈ entries, deliveredRecords mac entry = records mac entry) :
    entries.flatMap (deliveredRecords mac) = entries.flatMap (records mac) := List.flatMap_congr undisturbed

private theorem flatMap_tries_count (entries : List DirEntry) :
    (entries.flatMap (entryTries mac)).count true = (entries.flatMap (deliveredRecords mac)).length := by
  rw [List.count_flatMap, List.length_flatMap]
  exact congrArg List.sum (List.map_congr_left fun entry _ => entryTries_count mac entry)

private theorem faithful_of_quiet {entries front : List DirEntry} (quiet : QuietLoad mac grows entries)
    (part : front <+: entries) :
    FaithfulLoad mac front (bioDaemonLoadEnrollments mac grows true (some front)) := by
  obtain ⟨back, rfl⟩ := part
  by_cases refused : ∃ entry ∈ front, Refused mac entry
  · obtain ⟨entry, rest, code, shape, failed⟩ := heardOf_split mac refused
    have shorter : (heardOf mac front).length ≠ front.length := by
      conv_rhs => rw [shape]
      rw [List.length_append, List.length_cons]
      omega
    have same : heardOf mac (front ++ back) = heardOf mac front := by rw [heardOf_append, if_neg shorter]
    obtain ⟨granted, undisturbed, early⟩ := quiet
    rw [same] at granted undisturbed early
    obtain ⟨other, inside, other_refused⟩ := refused
    have none := early ⟨other, List.mem_append_left _ inside, other_refused⟩
    have nothing : (heardOf mac front).flatMap (deliveredRecords mac) = [] :=
      List.flatMap_eq_nil_iff.mpr fun entry inside => (undisturbed entry inside).trans (none entry inside)
    have ended := load_refused mac grows rest (not_refused_of_heard mac) granted failed
    rw [← shape, nothing] at ended
    rw [ended]
    exact ⟨fun _ => ⟨rfl, rfl⟩, fun well => absurd well (Refused.code_ne mac failed)⟩
  · have heard : ∀ entry ∈ front, ¬ Refused mac entry := fun entry inside bad => refused ⟨entry, inside, bad⟩
    have all : heardOf mac front = front :=
      List.takeWhile_eq_self_iff.mpr fun entry inside => (isHeard_iff mac).mpr (heard entry inside)
    have same : heardOf mac (front ++ back) = front ++ heardOf mac back := by rw [heardOf_append, if_pos (by rw [all])]
    obtain ⟨granted, undisturbed, -⟩ := quiet
    rw [same] at granted undisturbed
    rw [List.flatMap_append, granted_append grows (flatMap_tries_count mac front)] at granted
    rw [(load_heard mac grows heard).1 granted.1,
      flatMap_delivered mac fun entry inside => undisturbed entry (List.mem_append_left _ inside)]
    exact ⟨fun bad => absurd rfl bad, fun _ => ⟨rfl, rfl⟩⟩

private theorem quiet_of_faithful {entries : List DirEntry}
    (faithful : ∀ front, front <+: entries → FaithfulLoad mac front (bioDaemonLoadEnrollments mac grows true (some front))) :
    QuietLoad mac grows entries := by
  have part : heardOf mac entries <+: entries := List.takeWhile_prefix _
  have granted : Granted grows .start ((heardOf mac entries).flatMap (entryTries mac)) := by
    by_contra missing
    obtain ⟨failed, some⟩ := (load_heard mac grows (not_refused_of_heard mac)).2 missing
    refine some ((faithful _ part).failed ?_).2
    rw [failed]
    exact nofun
  have total (front back : List DirEntry) (shape : heardOf mac entries = front ++ back) :
      front.flatMap (deliveredRecords mac) = front.flatMap (records mac) := by
    have heard : ∀ entry ∈ front, ¬ Refused mac entry :=
      fun entry inside => not_refused_of_heard mac entry (shape ▸ List.mem_append_left back inside)
    have listed : front <+: entries := (shape ▸ List.prefix_append front back : front <+: heardOf mac entries).trans part
    have enough : Granted grows .start (front.flatMap (entryTries mac)) := by
      rw [shape, List.flatMap_append, granted_append grows (flatMap_tries_count mac front)] at granted
      exact granted.1
    have result := faithful front listed
    rw [(load_heard mac grows heard).1 enough] at result
    exact (result.loaded rfl).1
  have undisturbed : ∀ entry ∈ heardOf mac entries, deliveredRecords mac entry = records mac entry := by
    intro entry inside
    obtain ⟨front, back, shape⟩ := List.append_of_mem inside
    have before := total front (entry :: back) shape
    have after := total (front ++ [entry]) back (by rw [shape, List.append_assoc]; rfl)
    rw [List.flatMap_append, List.flatMap_append, before, List.flatMap_singleton, List.flatMap_singleton] at after
    exact List.append_cancel_left after
  refine ⟨granted, undisturbed, fun refused => ?_⟩
  obtain ⟨entry, rest, code, shape, failed⟩ := heardOf_split mac refused
  have ended := load_refused mac grows rest (not_refused_of_heard mac) granted failed
  rw [← shape] at ended
  have clean := ((faithful entries (List.prefix_refl _)).failed (by rw [ended]; exact Refused.code_ne mac failed)).2
  rw [ended, flatMap_delivered mac undisturbed] at clean
  exact List.flatMap_eq_nil_iff.mp (List.length_eq_zero_iff.mp clean)

private theorem readEnrollment_uid (uid : Uid) : Proc.Ensures (readEnrollment uid) fun enrolled => enrolled.uid = uid := by
  unfold readEnrollment
  iterate 4 refine .after fun _ => ?_
  refine .ite (fun _ => .after fun _ => ?_) fun _ => ?_
  all_goals
    iterate 2 refine .after fun _ => ?_
    refine .ite (fun _ => .after fun _ => ?_) fun _ => ?_
  all_goals exact .after fun _ => .pure rfl

private theorem readEnrollments_uid {uid : Uid} {enrolled : Enrollment} (count : Nat) :
    ∀ bytes, enrolled ∈ readEnrollments uid count bytes → enrolled.uid = uid := by
  induction count with
  | zero => exact fun _ inside => by cases inside
  | succ count ih =>
    intro bytes inside
    unfold readEnrollments at inside
    rcases read : readEnrollment uid bytes with ⟨problem | first, rest⟩ <;> rw [read] at inside
    · cases inside
    · obtain rfl | later := List.mem_cons.mp inside
      · exact readEnrollment_uid uid bytes _ rest read
      · exact ih rest later

private theorem openedFile_uid {entry : DirEntry} {uid : Uid} {file : EnrollmentFile} {key : Buf 32}
    (opened : openedFile entry = .ok (some (uid, file, key))) : dirUid entry.name = some uid := by
  unfold openedFile at opened
  split at opened
  · rename_i named _
    rw [named]
    repeat' first | cases opened | split at opened
    all_goals rfl
  · cases opened

private theorem dirUid_of_mem_records {entry : DirEntry} {enrolled : Enrollment} (inside : enrolled ∈ records mac entry) :
    dirUid entry.name = some enrolled.uid := by
  unfold records recordsIn at inside
  split at inside
  · rename_i uid file key opened
    rw [openedFile_uid opened]
    split at inside
    · split at inside
      · rw [readEnrollments_uid _ _ inside]
      · cases inside
    · cases inside
  · cases inside

/-- Wherever the listing of the directory ends, loading is faithful, and the daemon has no enrolment
that was not read from an authenticated file, exactly if the walk meets with nothing that it cannot
undo or does not notice. A directory that cannot be opened is an empty one, and every record has the user of its name. -/
theorem loads_are_faithful_iff (entries : List DirEntry) :
    ((∀ front, front <+: entries → ∀ arrayGranted tableGranted,
      FaithfulLoad mac front (bioDaemonLoadEnrollments mac grows arrayGranted (some front)) ∧
        AuthenticTable mac front (createTable tableGranted (bioDaemonLoadEnrollments mac grows arrayGranted (some front)))) ↔
      QuietLoad mac grows entries) ∧
    (∀ arrayGranted, FaithfulLoad mac [] (bioDaemonLoadEnrollments mac grows arrayGranted none)) ∧
    ∀ entry, ∀ enrolled ∈ records mac entry, dirUid entry.name = some enrolled.uid := by
  refine ⟨⟨fun every => ?_, fun quiet front part arrayGranted tableGranted => ?_⟩,
    fun _ => ⟨fun bad => absurd rfl bad, fun _ => ⟨rfl, rfl⟩⟩,
    fun entry enrolled inside => dirUid_of_mem_records mac inside⟩
  · exact quiet_of_faithful mac grows fun front part => (every front part true true).1
  · have faithful : FaithfulLoad mac front (bioDaemonLoadEnrollments mac grows arrayGranted (some front)) := by
      cases arrayGranted with
      | false => exact ⟨fun _ => ⟨rfl, rfl⟩, nofun⟩
      | true => exact faithful_of_quiet mac grows quiet part
    exact ⟨faithful, authentic_createTable mac faithful tableGranted⟩

private theorem takes_header (count : Nat) (few : count < 256 ^ 2) :
    Takes takeHeader (leBytes 4 enrollmentMagic ++ (leBytes 2 enrollmentVersion ++ leBytes 2 count)) count := by
  have magic : enrollmentMagic % 256 ^ 4 = enrollmentMagic := rfl
  have version : enrollmentVersion % 256 ^ 2 = enrollmentVersion := rfl
  refine .bind (takes_nat 4 _) ?_
  rw [magic, if_neg (fun different => different rfl)]
  refine .bind (takes_nat 2 _) ?_
  rw [version, if_neg (fun different => different rfl)]
  have read := takes_nat 2 count
  rwa [Nat.mod_eq_of_lt few] at read

/-- What is behind the records does not matter. -/
theorem recordsIn_userBytes {uid : Uid} {own : List Enrollment} (same : ∀ enrolled ∈ own, enrolled.uid = uid)
    (few : own.length < 256 ^ 2)
    (rest : Bytes) : recordsIn uid (userBytes own ++ rest) = own := by
  have shape : userBytes own ++ rest = (leBytes 4 enrollmentMagic ++ (leBytes 2 enrollmentVersion ++ leBytes 2 own.length)) ++
      (own.flatMap enrollmentBytes ++ rest) := by simp [userBytes]
  unfold recordsIn
  rw [shape, takes_header _ few]
  exact readEnrollments_bytes own same rest

/-- A file that the daemon wrote for the user of the directory is loaded as what it was written from. -/
theorem records_saved {entry : DirEntry} {uid : Uid} {file : EnrollmentFile} {key : Buf 32} {own : List Enrollment}
    (same : ∀ enrolled ∈ own, enrolled.uid = uid) (few : own.length < 256 ^ 2)
    (opened : openedFile entry = .ok (some (uid, file, key)))
    (written : file.content = sealedFile mac key (userBytes own)) (hashed : file.hashed = true)
    (again : file.secondRead = none) :
    deliveredRecords mac entry = own ∧ records mac entry = own := by
  have cut : file.content.length - 32 = (userBytes own).length := by
    rw [written, sealedFile, List.length_append, Buf.length_bytes, Nat.add_sub_cancel]
  have body : file.body = userBytes own := by rw [EnrollmentFile.body, cut, written, sealedFile, List.take_left]
  have vouched : (mac key file.body).bytes = file.trailer := by
    rw [body, EnrollmentFile.trailer, cut, written, sealedFile, List.drop_left]
  have taken : authenticFile mac entry = .ok (some (uid, file)) := by
    unfold authenticFile
    rw [opened]
    dsimp only
    rw [EnrollmentFile.expectedMac, if_pos hashed, if_neg (not_not_intro vouched)]
  have delivered : file.delivered = userBytes own ++ (mac key (userBytes own)).bytes := by
    unfold EnrollmentFile.delivered
    rw [again, written]
    rfl
  have whole := recordsIn_userBytes same few []
  rw [List.append_nil] at whole
  unfold deliveredRecords records
  rw [taken, opened]
  dsimp only
  rw [if_pos vouched, delivered, body, recordsIn_userBytes same few, whole]
  exact ⟨rfl, rfl⟩

end

def noMac (_ : Buf 32) (_ : Bytes) : Buf 32 := .zero 32

def savedEntry (name : String) (key : Option (Buf 32)) : DirEntry where
  name := literal name
  file := some {
    content := sealedFile noMac (.zero 32) (userBytes [{ Enrollment.zero with finger := 7 }])
    measured := true
    buffered := true
    readWhole := true
    key
    hashed := true
    secondRead := none }

/-- The key cannot be had for the second file: the daemon goes on with an empty enrolment of root's. -/
theorem late_refusal_leaves_an_enrollment :
    let entries := [savedEntry "1000" (some (.zero 32)), savedEntry "1001" none]
    let result := bioDaemonLoadEnrollments noMac (fun _ => true) true (some entries)
    result = ⟨.cryptoInit, none, 1⟩ ∧ ((createTable true result).slots.bind (·[0]?)).map Enrollment.uid = some 0 ∧
      ¬ FaithfulLoad noMac entries result ∧ ¬ AuthenticTable noMac entries (createTable true result) := by
  have facts : bioDaemonLoadEnrollments noMac (fun _ => true) true
    (some [savedEntry "1000" (some (.zero 32)), savedEntry "1001" none]) =
        ⟨.cryptoInit, none, 1⟩ ∧
      Enrollment.zero ∉ [savedEntry "1000" (some (.zero 32)), savedEntry "1001" none].flatMap (records noMac) :=
        by decide +kernel
  obtain ⟨stopped, foreign⟩ := facts
  have slot : (createTable true ⟨.cryptoInit, none, 1⟩).slots.bind (·[0]?) = some .zero := by decide +kernel
  refine ⟨stopped, ?_, fun faithful => ?_, fun authentic => ?_⟩
  · rw [stopped, slot]
    rfl
  · rw [stopped] at faithful
    exact absurd (faithful.failed nofun).2 (by decide)
  · rw [stopped] at authentic
    obtain ⟨enrolled, inside, here⟩ := authentic 0 (by decide +kernel)
    rw [slot] at here
    exact foreign (Option.some.inj here ▸ inside)

end Hiya.Daemon
