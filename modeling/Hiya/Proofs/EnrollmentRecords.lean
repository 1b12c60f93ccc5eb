import Hiya.Daemon.EnrollmentFiles
import Hiya.Library.Grouping
import Hiya.Proofs.CredentialStore

/-! What the enrolment files give back: a directory in which every user with an enrolment
has a file of exactly these, and nobody else has one, loads as the list it was saved from. -/

namespace Hiya.Daemon
open Library
open Fido2 (Takes takes_bytes takes_buf takes_nat takes_byte)

theorem takes_enrollment (enrolled : Enrollment) :
    Takes (readEnrollment enrolled.uid) (enrollmentBytes enrolled) enrolled := by
  have shape : enrollmentBytes enrolled =
      [enrolled.finger] ++ (enrolled.label.bytes ++ (leBytes 8 enrolled.created.toUInt64.toNat ++
        (leBytes 4 enrolled.printData.bytes.length ++ (enrolled.printData.bytes ++
        (leBytes 4 enrolled.sealedBlob.bytes.length ++ (enrolled.sealedBlob.bytes ++ [])))))) := by
    simp [enrollmentBytes]
  have printShort : enrolled.printData.bytes.length % 256 ^ 4 = enrolled.printData.bytes.length :=
    Nat.mod_eq_of_lt (lt_of_le_of_lt enrolled.printData.short (by decide))
  have sealedShort : enrolled.sealedBlob.bytes.length % 256 ^ 4 = enrolled.sealedBlob.bytes.length :=
    Nat.mod_eq_of_lt (lt_of_le_of_lt enrolled.sealedBlob.short (by decide))
  have created : enrolled.created.toUInt64.toNat % 256 ^ 8 = enrolled.created.toUInt64.toNat :=
    Nat.mod_eq_of_lt enrolled.created.toUInt64.toNat_lt
  rw [shape]
  refine .bind (takes_byte _) <| .bind (takes_buf _) <| .bind (takes_nat 8 _) <| .bind (takes_nat 4 _) ?_
  rw [printShort, if_neg (Nat.not_lt.mpr enrolled.printData.short)]
  refine .bind (takes_bytes _ rfl) <| .bind (takes_nat 4 _) ?_
  rw [sealedShort, if_neg (Nat.not_lt.mpr enrolled.sealedBlob.short)]
  refine .bind (takes_bytes _ rfl) ?_
  simp only [Buf.bytes_ofBytes, Blob.ofSlice_bytes, created, UInt8.ofNat_toNat, UInt64.ofNat_toNat]
  exact .pure _

theorem readEnrollments_bytes {uid : Uid} (own : List Enrollment) (same : ∀ enrolled ∈ own, enrolled.uid = uid)
    (rest : Bytes) :
    readEnrollments uid own.length (own.flatMap enrollmentBytes ++ rest) = own := by
  induction own with
  | nil => rfl
  | cons enrolled later ih =>
    have first : enrolled.uid = uid := same enrolled List.mem_cons_self
    have read := takes_enrollment enrolled (later.flatMap enrollmentBytes ++ rest)
    rw [first] at read
    rw [List.length_cons, List.flatMap_cons, List.append_assoc]
    unfold readEnrollments
    rw [read]
    dsimp only
    rw [ih fun other inside => same other (List.mem_cons_of_mem _ inside)]

section
variable {mac : Buf 32 → Bytes → Buf 32} {key : Buf 32}

theorem userBytes_length (own : List Enrollment) : 8 ≤ (userBytes own).length := by
  simp [userBytes]
  omega

/-- A file that was written for a user is read back as what it was written from. -/
theorem loadUser_sealed {uid : Uid} {own : List Enrollment} (same : ∀ enrolled ∈ own, enrolled.uid = uid)
    (few : own.length < 256 ^ 2) : loadUser mac key uid (sealedFile mac key (userBytes own)) = own := by
  have long : (sealedFile mac key (userBytes own)).length - 32 = (userBytes own).length := by
    simp [sealedFile]
  have front : (sealedFile mac key (userBytes own)).take (userBytes own).length = userBytes own := List.take_left
  have back : (sealedFile mac key (userBytes own)).drop (userBytes own).length = (mac key (userBytes own)).bytes :=
    List.drop_left
  have shape : sealedFile mac key (userBytes own) = leBytes 4 enrollmentMagic ++ (leBytes 2 enrollmentVersion ++
      (leBytes 2 own.length ++ (own.flatMap enrollmentBytes ++ (mac key (userBytes own)).bytes))) := by
    simp [sealedFile, userBytes]
  have magic : leNat ((sealedFile mac key (userBytes own)).take 4) = enrollmentMagic := by
    rw [shape, List.take_left' (leBytes_length 4 _), leNat_leBytes]
    rfl
  have version : leNat (((sealedFile mac key (userBytes own)).drop 4).take 2) = enrollmentVersion := by
    rw [shape, List.drop_left' (leBytes_length 4 _), List.take_left' (leBytes_length 2 _), leNat_leBytes]
    rfl
  have afterVersion : (sealedFile mac key (userBytes own)).drop 6 =
      leBytes 2 own.length ++ (own.flatMap enrollmentBytes ++ (mac key (userBytes own)).bytes) := by
    rw [shape, ← List.append_assoc]
    exact List.drop_left' (by simp)
  have count : leNat (((sealedFile mac key (userBytes own)).drop 6).take 2) = own.length := by
    rw [afterVersion, List.take_left' (leBytes_length 2 _), leNat_leBytes, Nat.mod_eq_of_lt few]
  have entries : (sealedFile mac key (userBytes own)).drop 8 = own.flatMap enrollmentBytes ++
    (mac key (userBytes own)).bytes := by
    have later : (sealedFile mac key (userBytes own)).drop 8 = ((sealedFile mac key (userBytes own)).drop 6).drop 2 := by
      rw [List.drop_drop]
    rw [later, afterVersion, List.drop_left' (leBytes_length 2 _)]
  unfold loadUser
  dsimp only
  rw [long, front, back, if_neg (fun different => different rfl), magic, if_neg (fun different => different rfl), version,
    if_neg (fun different => different rfl), count, entries]
  exact readEnrollments_bytes own same _

def FileOf (mac : Buf 32 → Bytes → Buf 32) (hmacKey : Option (Buf 32)) (enrollments : List Enrollment)
    (entry : Uid × Bytes) : Prop :=
  ∃ key, hmacKey = some key ∧ entry.2 = sealedFile mac key (userBytes (groupOf Enrollment.uid enrollments entry.1))

structure Mirrored (mac : Buf 32 → Bytes → Buf 32) (dir : StateDir) (enrollments : List Enrollment) : Prop where
  nodup : (dir.files.map Prod.fst).Nodup
  users : ∀ uid, uid ∈ dir.files.map Prod.fst ↔ uid ∈ keysOf Enrollment.uid enrollments
  content : ∀ entry ∈ dir.files, FileOf mac dir.hmacKey enrollments entry

def Few (enrollments : List Enrollment) : Prop := ∀ uid, (groupOf Enrollment.uid enrollments uid).length ≤ 100

theorem loadUsers_sealed {env : Env} {dir : StateDir} {enrollments : List Enrollment} (few : Few enrollments)
    (files : List (Uid × Bytes)) : ∀ loaded : List Enrollment, (∀ entry ∈ files, FileOf mac dir.hmacKey enrollments entry) →
      loadUsers mac env files loaded dir = (some (loaded ++ regrouped Enrollment.uid (files.map Prod.fst) enrollments),
      dir) := by
  induction files with
  | nil =>
    intro loaded _
    simp [loadUsers, regrouped]
  | cons entry rest ih =>
    intro loaded content
    obtain ⟨uid, file⟩ := entry
    obtain ⟨key, stored, shape⟩ := content (uid, file) List.mem_cons_self
    dsimp only at shape
    have long : ¬ file.length < 40 := by
      have least := userBytes_length (groupOf Enrollment.uid enrollments uid)
      rw [shape]
      simp only [sealedFile, List.length_append, Buf.length_bytes]
      omega
    have known : getEnrollmentHmacKey env dir = (some key, dir) := by
      unfold getEnrollmentHmacKey
      rw [stored]
    have own : loadUser mac key uid file = groupOf Enrollment.uid enrollments uid := by
      rw [shape]
      apply loadUser_sealed
      · intro enrolled inside
        exact of_decide_eq_true (List.mem_filter.mp inside).2
      · exact lt_of_le_of_lt (few uid) (by decide)
    unfold loadUsers
    rw [if_neg long, known]
    dsimp only
    rw [own, ih _ fun later inside => content later (List.mem_cons_of_mem _ inside), List.append_assoc]
    rfl

/-- A mirrored directory loads as the list, in whatever order it is listed. -/
theorem loadEnrollments_mirrored {dir : StateDir} {enrollments : List Enrollment} (env : Env)
    (mirrored : Mirrored mac dir enrollments)
    (few : Few enrollments) {files : List (Uid × Bytes)} (listing : files.Perm dir.files) :
    loadEnrollments mac env { dir with files } =
      (some (regrouped Enrollment.uid (files.map Prod.fst) enrollments), { dir with files }) := by
  have content : ∀ entry ∈ files, FileOf mac dir.hmacKey enrollments entry :=
    fun entry inside => mirrored.content entry (listing.mem_iff.mp inside)
  exact loadUsers_sealed few files [] content

theorem Mirrored.loaded_perm {dir : StateDir} {enrollments : List Enrollment} (mirrored : Mirrored mac dir enrollments)
    {files : List (Uid × Bytes)} (listing : files.Perm dir.files) :
    (regrouped Enrollment.uid (files.map Prod.fst) enrollments).Perm enrollments := by
  have same := listing.map Prod.fst
  apply regrouped_perm
  · exact same.nodup_iff.mpr mirrored.nodup
  · intro enrolled inside
    rw [same.mem_iff, mirrored.users]
    exact (mem_keysOf _).mpr ⟨enrolled, inside, rfl⟩

theorem putFile_users (uid : Uid) (file : Bytes) (files : List (Uid × Bytes)) :
    (putFile uid file files).map Prod.fst = if uid ∈ files.map Prod.fst then files.map Prod.fst
    else files.map Prod.fst ++ [uid] := by
  induction files with
  | nil => rfl
  | cons entry rest ih =>
    obtain ⟨other, old⟩ := entry
    unfold putFile
    by_cases same : other = uid
    · subst same
      simp
    · have different : ¬ uid = other := fun equal => same equal.symm
      rw [if_neg same, List.map_cons, ih]
      simp only [List.map_cons, List.mem_cons, different, false_or]
      split
      · rfl
      · rfl

theorem mem_putFile {uid : Uid} {file : Bytes} {files : List (Uid × Bytes)} (nodup : (files.map Prod.fst).Nodup)
    {entry : Uid × Bytes} (inside : entry ∈ putFile uid file files) :
    entry = (uid, file) ∨ entry.1 ≠ uid ∧ entry ∈ files := by
  induction files with
  | nil => exact .inl (List.mem_singleton.mp inside)
  | cons first rest ih =>
    obtain ⟨other, old⟩ := first
    obtain ⟨fresh, nodup⟩ := List.nodup_cons.mp nodup
    unfold putFile at inside
    split at inside
    next same =>
      subst same
      rcases List.mem_cons.mp inside with here | later
      · exact .inl here
      · refine .inr ⟨?_, List.mem_cons_of_mem _ later⟩
        rintro rfl
        exact fresh (List.mem_map.mpr ⟨entry, later, rfl⟩)
    next different =>
      rcases List.mem_cons.mp inside with rfl | later
      · exact .inr ⟨different, List.mem_cons_self⟩
      · rcases ih nodup later with here | ⟨apart, later⟩
        · exact .inl here
        · exact .inr ⟨apart, List.mem_cons_of_mem _ later⟩

def putFiles (content : Uid → Bytes) (uids : List Uid) (files : List (Uid × Bytes)) : List (Uid × Bytes) :=
  uids.foldl (fun files uid => putFile uid (content uid) files) files

theorem putFiles_spec (content : Uid → Bytes) (uids : List Uid) : ∀ files : List (Uid × Bytes), (files.map Prod.fst).Nodup →
    ((putFiles content uids files).map Prod.fst).Nodup ∧
    (∀ uid, uid ∈ (putFiles content uids files).map Prod.fst ↔ uid ∈ files.map Prod.fst ∨ uid ∈ uids) ∧
    ∀ entry ∈ putFiles content uids files, entry.2 = content entry.1 ∨ entry.1 ∉ uids ∧ entry ∈ files := by
  induction uids with
  | nil =>
    intro files nodup
    refine ⟨nodup, fun uid => ?_, fun entry inside => .inr ⟨List.not_mem_nil, inside⟩⟩
    simp [putFiles]
  | cons first rest ih =>
    intro files nodup
    have users := putFile_users first (content first) files
    have once : ((putFile first (content first) files).map Prod.fst).Nodup := by
      rw [users]
      split
      · exact nodup
      next fresh =>
        refine List.nodup_append.mpr ⟨nodup, List.nodup_singleton _, ?_⟩
        intro old inside new last
        rw [List.mem_singleton.mp last]
        rintro rfl
        exact fresh inside
    have listed (uid : Uid) : uid ∈ (putFile first (content first) files).map Prod.fst ↔ uid ∈ files.map Prod.fst ∨
      uid = first := by
      rw [users]
      split
      next known =>
        constructor
        · exact .inl
        · rintro (old | rfl)
          · exact old
          · exact known
      next => rw [List.mem_append, List.mem_singleton]
    obtain ⟨distinct, members, written⟩ := ih (putFile first (content first) files) once
    refine ⟨distinct, fun uid => ?_, fun entry inside => ?_⟩
    · change uid ∈ (putFiles content rest (putFile first (content first) files)).map Prod.fst ↔ _
      rw [members, listed, List.mem_cons, or_assoc]
    · rcases written entry inside with new | ⟨apart, inside⟩
      · exact .inl new
      · rcases mem_putFile nodup inside with rfl | ⟨different, old⟩
        · exact .inl rfl
        · refine .inr ⟨?_, old⟩
          rw [List.mem_cons, not_or]
          exact ⟨different, apart⟩

/-- Nothing a save asks of the file system is refused. -/
structure FilesWork (env : Env) : Prop where
  makesDir : ∀ uid, env.makesDir uid = true
  opensFile : ∀ uid, env.opensFile uid = true
  writesFile : ∀ uid, env.writesFile uid = true
  renamesFile : ∀ uid, env.renamesFile uid = true
  newKey : env.newKey.isSome = true

theorem hmacKey_known {env : Env} (works : FilesWork env) (dir : StateDir) :
    ∃ key, getEnrollmentHmacKey env dir = (some key, { dir with hmacKey := some key }) := by
  obtain ⟨fresh, drawn⟩ := Option.isSome_iff_exists.mp works.newKey
  obtain ⟨hmacKey, files⟩ := dir
  unfold getEnrollmentHmacKey
  cases hmacKey with
  | none =>
    rw [drawn]
    exact ⟨fresh, rfl⟩
  | some key => exact ⟨key, rfl⟩

theorem saveUsers_written {env : Env} (works : FilesWork env) (enrollments : List Enrollment) (key : Buf 32)
    (uids : List Uid) :
    ∀ dir : StateDir, dir.hmacKey = some key → saveUsers mac env enrollments uids true dir =
      (true, { dir with
        files := putFiles (fun uid => sealedFile mac key (userBytes (groupOf Enrollment.uid enrollments uid))) uids dir.files }) := by
  induction uids with
  | nil => exact fun dir _ => rfl
  | cons uid rest ih =>
    intro dir stored
    have known : getEnrollmentHmacKey env dir = (some key, dir) := by
      unfold getEnrollmentHmacKey
      rw [stored]
    unfold saveUsers
    rw [works.makesDir, works.opensFile, works.writesFile, known]
    dsimp only
    rw [works.renamesFile]
    exact ih { dir with files := putFile uid _ dir.files } stored

theorem saveEnrollments_written {env : Env} (works : FilesWork env) (enrollments : List Enrollment) (dir : StateDir)
    (some? : savedUids enrollments ≠ []) : ∃ key, (saveEnrollments mac env enrollments dir).2 =
      { hmacKey := some key
        files := putFiles (fun uid => sealedFile mac key (userBytes (groupOf Enrollment.uid enrollments uid)))
          (savedUids enrollments) dir.files } := by
  obtain ⟨key, known⟩ := hmacKey_known works dir
  refine ⟨key, ?_⟩
  unfold saveEnrollments
  cases shape : savedUids enrollments with
  | nil => exact absurd shape some?
  | cons uid rest =>
    unfold saveUsers
    rw [works.makesDir, works.opensFile, works.writesFile, known]
    dsimp only
    rw [works.renamesFile]
    exact congrArg Prod.snd
      (saveUsers_written works enrollments key rest { hmacKey := some key, files := putFile uid _ dir.files } rfl)

/-- A save keeps the mirror when nobody loses their last enrolment by it and there is
room for every user. -/
theorem Mirrored.save {env : Env} {dir : StateDir} {before after : List Enrollment} (works : FilesWork env)
    (mirrored : Mirrored mac dir before) (kept : keysOf Enrollment.uid before ⊆ keysOf Enrollment.uid after)
    (small : (keysOf Enrollment.uid after).card ≤ maxSavedUsers) :
    Mirrored mac (saveEnrollments mac env after dir).2 after := by
  have saved (uid : Uid) : uid ∈ savedUids after ↔ uid ∈ keysOf Enrollment.uid after := mem_firstKeys Enrollment.uid small uid
  have old (uid : Uid) (listed : uid ∈ dir.files.map Prod.fst) : uid ∈ savedUids after :=
    (saved uid).mpr (kept ((mirrored.users uid).mp listed))
  by_cases nobody : savedUids after = []
  · have empty : dir.files = [] := by
      rw [List.eq_nil_iff_forall_not_mem]
      intro entry inside
      have listed := old entry.1 (List.mem_map_of_mem inside)
      rw [nobody] at listed
      cases listed
    have unchanged : (saveEnrollments mac env after dir).2 = dir := by
      unfold saveEnrollments
      rw [nobody]
      rfl
    rw [unchanged]
    refine ⟨mirrored.nodup, fun uid => ?_, fun entry inside => ?_⟩
    · rw [← saved, nobody, empty]
      exact Iff.rfl
    · rw [empty] at inside
      cases inside
  · obtain ⟨key, written⟩ := saveEnrollments_written works after dir nobody
    rw [written]
    obtain ⟨distinct, members, contents⟩ :=
      putFiles_spec (fun uid => sealedFile mac key (userBytes (groupOf Enrollment.uid after uid)))
        (savedUids after) dir.files mirrored.nodup
    refine ⟨distinct, fun uid => ?_, fun entry inside => ⟨key, rfl, ?_⟩⟩
    · rw [members, ← saved]
      exact or_iff_right_of_imp (old uid)
    · rcases contents entry inside with new | ⟨absent, stale⟩
      · exact new
      · exact absurd (old entry.1 (List.mem_map_of_mem stale)) absent

/-- The list a directory is loaded as is mirrored by it too. -/
theorem Mirrored.reload {dir : StateDir} {enrollments : List Enrollment} (mirrored : Mirrored mac dir enrollments) :
    Mirrored mac dir (regrouped Enrollment.uid (dir.files.map Prod.fst) enrollments) := by
  have perm := mirrored.loaded_perm (.refl dir.files)
  refine ⟨mirrored.nodup, fun uid => ?_, fun entry inside => ?_⟩
  · rw [mirrored.users, mem_keysOf, mem_keysOf]
    simp only [perm.mem_iff]
  · obtain ⟨key, stored, shape⟩ := mirrored.content entry inside
    refine ⟨key, stored, ?_⟩
    rw [groupOf_regrouped Enrollment.uid _ _ mirrored.nodup (List.mem_map_of_mem inside)]
    exact shape

end

end Hiya.Daemon
