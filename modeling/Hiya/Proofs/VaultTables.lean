import Hiya.Daemon.VaultTable
import Hiya.Proofs.ReadReplies
import Mathlib.Data.Fintype.Card

/-! The vaults of different users side by side. What a user is answered, and what becomes of the
vault and its file, is what a daemon of this user alone would do; others only matter where all of
the slots are taken. -/

namespace Hiya.Daemon.Vaults
open Library Pm Pm.Store
open Fido2 (ascii)
open Pm.Format (Primitives Stop)

theorem unsigned_inj {first second : Nat} (same : Audit.unsigned first = Audit.unsigned second) : first = second := by
  have text : toString first = toString second := String.toByteArray_inj.mp (ByteArray.ext (Array.toList_inj.mp same))
  have digits : Nat.toDigits 10 first = Nat.toDigits 10 second := by simpa using congrArg String.toList text
  calc first
    _ = Nat.ofDigitChars 10 (Nat.toDigits 10 first) 0 := (Nat.ofDigitChars_toDigits (by decide) (by decide)).symm
    _ = Nat.ofDigitChars 10 (Nat.toDigits 10 second) 0 := by rw [digits]
    _ = second := Nat.ofDigitChars_toDigits (by decide) (by decide)

theorem vaultPath_inj {stateDir : StatePath} {first second : Uid}
    (same : stateDir.vaultPath first = stateDir.vaultPath second) : first = second := by
  unfold StatePath.vaultPath at same
  have front := List.append_cancel_right same
  exact UInt32.toNat_inj.mp (unsigned_inj (List.append_cancel_left front))

theorem length_unsigned (value : Nat) (small : value < 10 ^ 10) : (Audit.unsigned value).length ≤ 40 := by
  have encoded (letters : List Char) : (letters.flatMap String.utf8EncodeChar).length ≤ 4 * letters.length := by
    induction letters with
    | nil => exact Nat.zero_le _
    | cons letter letters ih =>
      have one := Json.utf8_length_le letter
      rw [List.flatMap_cons, List.length_append, List.length_cons]
      omega
  have digits := (Nat.length_toDigits_le_iff (by decide) (by decide)).mpr small
  have whole := encoded (Nat.toDigits 10 value)
  rw [Audit.unsigned_eq]
  omega

theorem buildUserVaultPath_ok (stateDir : StatePath) (uid : Uid) : buildUserVaultPath stateDir uid =
    .ok (stateDir.vaultPath uid) := by
  have fits := stateDir.fits
  have number := length_unsigned uid.toNat (Nat.lt_trans uid.toNat_lt (by decide))
  have around : (ascii "/users/").length = 7 ∧ (ascii "/vault.vlt").length = 10 := by decide
  have short : (stateDir.vaultPath uid).length < pathMax := by
    unfold StatePath.vaultPath pathMax
    simp only [List.length_append, around]
    omega
  rw [buildUserVaultPath, if_neg (Nat.not_le.mpr short)]

namespace VaultTable

/-- Every slot is of a user of its own, has a handle and is on the file of its user. -/
structure Seated (table : VaultTable) : Prop where
  unique : ∀ first second one two, table.vaults first = some one → table.vaults second = some two → one.uid = two.uid →
    first = second
  held : ∀ slot vault, table.vaults slot = some vault → ∃ handle, vault.handle = some handle
  path : ∀ slot vault, table.vaults slot = some vault → vault.path = table.stateDir.vaultPath vault.uid

/-- What is in the slot of the user. -/
def find (table : VaultTable) (uid : Uid) : Option UserVault := (table.slotOf uid).bind table.vaults

variable {table : VaultTable} {uid other : Uid} {slot : Fin maxVaults} {vault : UserVault}

theorem slotOf_some (found : table.slotOf uid = some slot) : ∃ vault, table.vaults slot = some vault ∧ vault.uid = uid := by
  unfold slotOf at found
  have here := List.find?_some found
  rw [Option.any_eq_true] at here
  obtain ⟨vault, held, same⟩ := here
  exact ⟨vault, held, of_decide_eq_true same⟩

theorem slotOf_none : table.slotOf uid = none ↔ ∀ slot vault, table.vaults slot = some vault → vault.uid ≠ uid := by
  unfold slotOf
  rw [List.find?_eq_none]
  constructor
  · intro none slot vault held same
    exact none slot (List.mem_finRange slot) (by simp [held, same])
  · intro none slot _ here
    rw [Option.any_eq_true] at here
    obtain ⟨vault, held, same⟩ := here
    exact none slot vault held (of_decide_eq_true same)

theorem freeSlot_some (found : table.freeSlot = some slot) : table.vaults slot = none := by
  unfold freeSlot at found
  have here := List.find?_some found
  exact Option.isNone_iff_eq_none.mp here

theorem freeSlot_none : table.freeSlot = none ↔ ∀ slot, table.vaults slot ≠ none := by
  unfold freeSlot
  rw [List.find?_eq_none]
  constructor
  · intro none slot free
    exact none slot (List.mem_finRange slot) (by simp [free])
  · intro none slot _ free
    exact none slot (Option.isNone_iff_eq_none.mp free)

theorem slotOf_of_held (seated : table.Seated) (held : table.vaults slot = some vault) :
    table.slotOf vault.uid = some slot := by
  cases found : table.slotOf vault.uid with
  | none => exact absurd rfl (slotOf_none.mp found slot vault held)
  | some place =>
    obtain ⟨own, there, same⟩ := slotOf_some found
    rw [seated.unique place slot own vault there held same]

theorem find_iff (seated : table.Seated) : table.find uid = some vault ↔ ∃ slot, table.vaults slot = some vault ∧
    vault.uid = uid := by
  unfold find
  rw [Option.bind_eq_some_iff]
  constructor
  · rintro ⟨slot, found, held⟩
    obtain ⟨own, there, same⟩ := slotOf_some found
    rw [held] at there
    cases there
    exact ⟨slot, held, same⟩
  · rintro ⟨slot, held, rfl⟩
    exact ⟨slot, slotOf_of_held seated held, held⟩

theorem find_none : table.find uid = none ↔ table.slotOf uid = none := by
  unfold find
  rw [Option.bind_eq_none_iff]
  constructor
  · intro none
    cases found : table.slotOf uid with
    | none => rfl
    | some slot =>
      obtain ⟨vault, held, -⟩ := slotOf_some found
      rw [none slot found] at held
      cases held
  · intro none slot found
    rw [none] at found
    cases found

theorem view_eq : table.view uid =
    { file := table.files (table.stateDir.vaultPath uid), handle := (table.find uid).bind (·.handle), unlockedAt := ((table.find uid).map (·.unlockedAt)).getD 0 } := rfl

/-- Only this slot is one of the user, and it is of nobody else. -/
structure Fits (table : VaultTable) (slot : Fin maxVaults) (uid : Uid) : Prop where
  mine : ∀ old, table.vaults slot = some old → old.uid = uid
  only : ∀ place old, table.vaults place = some old → old.uid = uid → place = slot

theorem fits_slotOf (seated : table.Seated) (found : table.slotOf uid = some slot) : table.Fits slot uid where
  mine old held := by
    obtain ⟨vault, there, same⟩ := slotOf_some found
    rw [held] at there
    cases there
    exact same
  only place old held same := by
    obtain ⟨vault, there, mine⟩ := slotOf_some found
    exact seated.unique place slot old vault held there (same.trans mine.symm)

theorem fits_freeSlot (none : table.slotOf uid = none) (free : table.freeSlot = some slot) : table.Fits slot uid where
  mine old held := by
    rw [freeSlot_some free] at held
    cases held
  only place old held same := absurd same (slotOf_none.mp none place old held)

theorem vaults_setVault {item : Option UserVault} (place : Fin maxVaults) :
    (table.setVault slot item).vaults place = if place = slot then item else table.vaults place := by
  unfold setVault
  by_cases here : place = slot
  · subst here
    simp
  · simp [here]

section
variable (seated : table.Seated) (fits : table.Fits slot vault.uid)
include seated fits

theorem Seated.setVault {handle : Handle} (held : vault.handle = some handle)
    (path : vault.path = table.stateDir.vaultPath vault.uid) :
    (table.setVault slot (some vault)).Seated := by
  constructor
  · intro first second one two here there same
    rw [vaults_setVault] at here there
    split at here
    next is =>
      cases here
      split at there
      next too => rw [is, too]
      next => exact is.trans (fits.only second two there same.symm).symm
    next =>
      split at there
      next too =>
        cases there
        exact (fits.only first one here same).trans too.symm
      next => exact seated.unique first second one two here there same
  · intro place own here
    rw [vaults_setVault] at here
    split at here
    next =>
      cases here
      exact ⟨handle, held⟩
    next => exact seated.held place own here
  · intro place own here
    rw [vaults_setVault] at here
    split at here
    next =>
      cases here
      exact path
    next => exact seated.path place own here

theorem find_setVault (after : (table.setVault slot (some vault)).Seated) (other : Uid) :
    (table.setVault slot (some vault)).find other = if other = vault.uid then some vault else table.find other := by
  refine Option.ext fun own => ?_
  rw [find_iff after]
  split
  next is =>
    subst is
    constructor
    · rintro ⟨place, here, same⟩
      rw [vaults_setVault] at here
      split at here
      next => exact here
      next apart => exact absurd (fits.only place own here same) apart
    · rintro same
      cases same
      exact ⟨slot, by rw [vaults_setVault, if_pos rfl], rfl⟩
  next differs =>
    rw [find_iff seated]
    refine exists_congr fun place => and_congr_left fun same => ?_
    rw [vaults_setVault]
    split
    next is =>
      subst is
      refine iff_of_false (fun is => differs ?_) fun held => differs ?_
      · cases is
        exact same.symm
      · rw [← same, fits.mine own held]
    next => exact Iff.rfl

end

theorem Seated.close (seated : table.Seated) (slot : Fin maxVaults) : (table.closeUserVaultSlot slot).Seated := by
  have old {place : Fin maxVaults} {own : UserVault} (here : (table.closeUserVaultSlot slot).vaults place = some own) :
    table.vaults place = some own := by
    rw [closeUserVaultSlot, vaults_setVault] at here
    split at here
    · cases here
    · exact here
  exact ⟨fun first second one two here there => seated.unique first second one two (old here) (old there),
    fun place own here => seated.held place own (old here), fun place own here => seated.path place own (old here)⟩

theorem find_close (seated : table.Seated) (found : table.slotOf uid = some slot) (other : Uid) :
    (table.closeUserVaultSlot slot).find other = if other = uid then none else table.find other := by
  have fits := fits_slotOf seated found
  refine Option.ext fun own => ?_
  rw [find_iff (seated.close slot)]
  split
  next is =>
    subst is
    refine iff_of_false ?_ nofun
    rintro ⟨place, here, same⟩
    rw [closeUserVaultSlot, vaults_setVault] at here
    split at here
    · cases here
    next apart => exact apart (fits.only place own here same)
  next differs =>
    rw [find_iff seated]
    refine exists_congr fun place => and_congr_left fun same => ?_
    rw [closeUserVaultSlot, vaults_setVault]
    split
    next is =>
      subst is
      refine iff_of_false nofun fun held => differs ?_
      rw [← same, fits.mine own held]
    next => exact Iff.rfl

def write (table : VaultTable) (uid : Uid) (file : Option Bytes) : VaultTable :=
  { table with files := Function.update table.files (table.stateDir.vaultPath uid) file }

theorem Seated.write (seated : table.Seated) (uid : Uid) (file : Option Bytes) : (table.write uid file).Seated :=
  ⟨seated.unique, seated.held, seated.path⟩

/-- The slot that a method of the user works in. -/
def place (table : VaultTable) (uid : Uid) : Option (Fin maxVaults) := table.slotOf uid <|> table.freeSlot

theorem fits_place (seated : table.Seated) (there : table.place uid = some slot) : table.Fits slot uid := by
  unfold place at there
  cases found : table.slotOf uid with
  | some own =>
    rw [found] at there
    cases there
    exact fits_slotOf seated found
  | none =>
    rw [found] at there
    exact fits_freeSlot found there

theorem hasRoom_iff : table.hasRoom uid = true ↔ ∃ slot, table.place uid = some slot := by
  unfold hasRoom place
  cases table.slotOf uid with
  | some slot => simp
  | none => simp [Option.isSome_iff_exists]

/-- An unlocked vault goes into the slot that is found for its user, if there is one. -/
theorem put_held {after : VaultSlot} {handle : Handle} (held : after.handle = some handle) :
    table.put uid after = ((table.write uid after.file).findOrAllocUserVaultSlot uid (table.stateDir.vaultPath uid)).elim
      (table.write uid after.file) fun found => found.2.setVault found.1
        (some { uid, path := table.stateDir.vaultPath uid, handle := some handle, unlockedAt := after.unlockedAt }) := by
  unfold put write
  rw [held]
  dsimp only
  split
  next full =>
    rw [full]
    rfl
  next taken =>
    rw [taken]
    rfl

theorem put_some {after : VaultSlot} {handle : Handle} (held : after.handle = some handle)
    (there : table.place uid = some slot) :
    table.put uid after = (table.write uid after.file).setVault slot
      (some { uid, path := table.stateDir.vaultPath uid, handle := some handle, unlockedAt := after.unlockedAt }) := by
  unfold place at there
  have own : (table.write uid after.file).slotOf uid = table.slotOf uid := rfl
  have free : (table.write uid after.file).freeSlot = table.freeSlot := rfl
  rw [put_held held, findOrAllocUserVaultSlot, own, free]
  cases found : table.slotOf uid with
  | some place =>
    rw [found] at there
    cases there
    rfl
  | none =>
    rw [found] at there
    have there : table.freeSlot = some slot := there
    rw [there]
    simp [setVault, Function.update_idem]

theorem put_none {after : VaultSlot} (held : after.handle = none) :
    table.put uid after = ((table.slotOf uid).map (table.write uid after.file).closeUserVaultSlot).getD
    (table.write uid after.file) := by
  unfold put
  rw [held]
  rfl

/-- A method leaves a handle only where there is room for it. -/
theorem put_seated (seated : table.Seated) {after : VaultSlot} (room : after.handle ≠ none →
    table.hasRoom uid = true) : (table.put uid after).Seated := by
  cases held : after.handle with
  | none =>
    rw [put_none held]
    cases table.slotOf uid with
    | none => exact seated.write uid after.file
    | some slot => exact (seated.write uid after.file).close slot
  | some handle =>
    obtain ⟨slot, there⟩ := hasRoom_iff.mp (room (by simp [held]))
    rw [put_some held there]
    have fits := fits_place seated there
    exact (seated.write uid after.file).setVault ⟨fits.mine, fits.only⟩ rfl rfl

theorem put_find (seated : table.Seated) {after : VaultSlot} (room : after.handle ≠ none → table.hasRoom uid = true)
    (other : Uid) :
    (table.put uid after).find other = if other = uid then
        after.handle.map fun handle => { uid, path := table.stateDir.vaultPath uid, handle := some handle, unlockedAt := after.unlockedAt }
      else table.find other := by
  have whole := put_seated seated room
  cases held : after.handle with
  | none =>
    rw [put_none held]
    cases found : table.slotOf uid with
    | none =>
      split
      next is =>
        subst is
        exact find_none.mpr found
      next => rfl
    | some slot => exact find_close (seated.write uid after.file) found other
  | some handle =>
    obtain ⟨slot, there⟩ := hasRoom_iff.mp (room (by simp [held]))
    rw [put_some held there] at whole ⊢
    have fits := fits_place seated there
    refine find_setVault (seated.write uid after.file) ?_ whole other
    exact ⟨fits.mine, fits.only⟩

theorem put_cases (table : VaultTable) (uid : Uid) (after : VaultSlot) :
    table.put uid after = table.write uid after.file ∨
    ∃ slot item, table.put uid after = (table.write uid after.file).setVault slot item := by
  cases held : after.handle with
  | none =>
    rw [put_none held]
    cases table.slotOf uid with
    | none => exact .inl rfl
    | some slot => exact .inr ⟨slot, none, rfl⟩
  | some handle =>
    cases there : table.place uid with
    | some slot => exact .inr ⟨slot, _, put_some held there⟩
    | none =>
      have full : table.slotOf uid = none ∧ table.freeSlot = none := by
        unfold place at there
        cases found : table.slotOf uid with
        | some slot =>
          rw [found] at there
          cases there
        | none =>
          rw [found] at there
          exact ⟨rfl, there⟩
      left
      have own : (table.write uid after.file).slotOf uid = none := full.1
      have free : (table.write uid after.file).freeSlot = none := full.2
      rw [put_held held, findOrAllocUserVaultSlot, own, free]
      rfl

theorem put_stateDir (after : VaultSlot) : (table.put uid after).stateDir = table.stateDir := by
  obtain same | ⟨slot, item, same⟩ := put_cases table uid after
  · rw [same]
    rfl
  · rw [same]
    rfl

theorem put_files (after : VaultSlot) : (table.put uid after).files =
    Function.update table.files (table.stateDir.vaultPath uid) after.file := by
  obtain same | ⟨slot, item, same⟩ := put_cases table uid after
  · rw [same]
    rfl
  · rw [same]
    rfl

def Tidy (slot : VaultSlot) : Prop := slot.handle = none → slot.unlockedAt = 0

theorem view_tidy (seated : table.Seated) (uid : Uid) : Tidy (table.view uid) := by
  intro none
  rw [view_eq] at none ⊢
  cases found : table.find uid with
  | none => rfl
  | some vault =>
    obtain ⟨slot, here, -⟩ := (find_iff seated).mp found
    obtain ⟨handle, held⟩ := seated.held slot vault here
    simp [found, held] at none

theorem view_put (seated : table.Seated) {after : VaultSlot} (room : after.handle ≠ none → table.hasRoom uid = true)
    (tidy : Tidy after) :
    (table.put uid after).view uid = after := by
  rw [view_eq, put_find seated room, put_files, put_stateDir, if_pos rfl, Function.update_self]
  obtain ⟨file, handle, unlockedAt⟩ := after
  cases handle with
  | some handle => rfl
  | none =>
    have zero : unlockedAt = 0 := tidy rfl
    rw [zero]
    rfl

theorem view_put_other (seated : table.Seated) {after : VaultSlot} (room : after.handle ≠ none →
    table.hasRoom uid = true) (apart : other ≠ uid) :
    (table.put uid after).view other = table.view other := by
  have path : table.stateDir.vaultPath other ≠ table.stateDir.vaultPath uid := fun same => apart (vaultPath_inj same)
  rw [view_eq, view_eq, put_find seated room, put_files, put_stateDir, if_neg apart, Function.update_of_ne path]

end VaultTable

/-- A method that does not touch the slot, or leaves a handle in one that there is room for. -/
def Leaves (env : Env) (slot after : VaultSlot) : Prop :=
  after = slot ∨ after.handle ≠ none ∧ (slot.handle ≠ none ∨ env.slotFree = true)

section
variable {env : Env} {slot : VaultSlot} {handle : Handle}

theorem ensured_room (found : ensureUserVaultHandle env slot = .ok handle) : slot.handle ≠ none ∨ env.slotFree = true := by
  unfold ensureUserVaultHandle at found
  cases held : slot.handle with
  | some own => exact .inl nofun
  | none =>
    rw [held] at found
    dsimp only at found
    split at found
    next free => exact .inr free
    next => cases found

theorem applyPlan_handle (lib : Primitives) (texts : Texts) (plan : Plan) (handle : Handle) :
    (applyPlan lib env texts plan handle slot).2.handle ≠ none := by
  unfold applyPlan
  dsimp only
  split
  · nofun
  · split
    · nofun
    · split <;> nofun

theorem changeVault_leaves (lib : Primitives) (texts : Texts) (checked : Except MethodError Unit) (plan : VaultHandle →
    Except MethodError Plan) :
    Leaves env slot (changeVault lib env texts checked plan slot).2 := by
  unfold changeVault
  split
  · exact .inl rfl
  · split
    · exact .inl rfl
    · exact .inl rfl
    next found =>
      have room := ensured_room found
      dsimp only
      split
      · exact .inr ⟨nofun, room⟩
      · split
        · exact .inr ⟨nofun, room⟩
        · exact .inr ⟨applyPlan_handle lib texts _ _, room⟩

theorem answerRead_leaves (call : ReadCall) : Leaves env slot (answerRead env call slot).2 := by
  rw [answerRead_eq]
  obtain ⟨refusal, is⟩ | ⟨handle, refusal, found, is⟩ | ⟨handle, text, found, -, -, -, is⟩ :=
    readVault_cases env slot call.checked call.fails call.build
  · rw [is]
    exact .inl rfl
  · rw [is]
    exact .inr ⟨nofun, ensured_room found⟩
  · rw [is]
    exact .inr ⟨nofun, ensured_room found⟩

theorem lockVault_leaves : Leaves env slot (lockVault env slot).2 := by
  unfold lockVault
  split
  · exact .inl rfl
  · exact .inl rfl
  next found => exact .inr ⟨nofun, ensured_room found⟩

theorem lockedProperty_leaves : Leaves env slot (lockedProperty env slot).2 := by
  unfold lockedProperty
  split
  · exact .inl rfl
  · exact .inl rfl
  next found => exact .inr ⟨nofun, ensured_room found⟩

theorem autoUnlock_leaves (lib : Primitives) (argon2id : Argon2id) (around : Recognized) :
    Leaves env slot (autoUnlockUserVault lib argon2id around env slot).2 := by
  unfold autoUnlockUserVault
  split
  · exact .inl rfl
  next found =>
    have room := ensured_room found
    dsimp only
    split
    · exact .inr ⟨nofun, room⟩
    · split
      · exact .inr ⟨nofun, room⟩
      · split
        · exact .inr ⟨nofun, room⟩
        · exact .inr ⟨nofun, room⟩

theorem UserCall.run_leaves (otpImportFromQr : OtpImport) (lib : Primitives) (argon2id : Argon2id) (env : Env)
    (slot : VaultSlot) (call : UserCall) :
    Leaves env slot (call.run otpImportFromQr lib argon2id env slot).2 := by
  cases call with
  | change call => exact changeVault_leaves lib _ _ _
  | read call => exact answerRead_leaves call
  | lockVault => exact lockVault_leaves
  | locked => exact lockedProperty_leaves
  | recognized around => exact autoUnlock_leaves lib argon2id around

theorem Leaves.room {after : VaultSlot} {table : VaultTable} {uid : Uid}
    (leaves : Leaves { env with slotFree := table.hasRoom uid } (table.view uid) after) : after.handle ≠ none →
    table.hasRoom uid = true := by
  intro some
  have seen (held : (table.view uid).handle ≠ none) : table.hasRoom uid = true := by
    cases found : table.slotOf uid with
    | none => simp [VaultTable.view_eq, VaultTable.find_none.mpr found] at held
    | some slot => simp [VaultTable.hasRoom, found]
  obtain rfl | ⟨-, held | free⟩ := leaves
  · exact seen some
  · exact seen held
  · exact free

theorem Leaves.tidy {after : VaultSlot} (leaves : Leaves env slot after) (tidy : VaultTable.Tidy slot) :
    VaultTable.Tidy after := by
  obtain rfl | ⟨held, -⟩ := leaves
  · exact tidy
  · exact fun none => absurd none held

end

def lockedWhere (due : UserVault → Bool) (vault : UserVault) : UserVault :=
  if vault.isUnlocked && due vault then { vault with handle := vault.handle.map vaultLock } else vault

namespace VaultTable
variable {table : VaultTable} {uid : Uid} {due : UserVault → Bool}

theorem lockedWhere_uid (vault : UserVault) : (lockedWhere due vault).uid = vault.uid := by
  unfold lockedWhere
  split <;> rfl

theorem lockEach_vaults (slot : Fin maxVaults) : (table.lockEach due).2.vaults slot =
    (table.vaults slot).map (lockedWhere due) := rfl

theorem lockEach_seated (seated : table.Seated) : (table.lockEach due).2.Seated := by
  have old {slot : Fin maxVaults} {vault : UserVault} (here : (table.lockEach due).2.vaults slot = some vault) :
      ∃ before, table.vaults slot = some before ∧ lockedWhere due before = vault := by
    rw [lockEach_vaults] at here
    exact Option.map_eq_some_iff.mp here
  constructor
  · intro first second one two here there same
    obtain ⟨former, one, rfl⟩ := old here
    obtain ⟨latter, two, rfl⟩ := old there
    rw [lockedWhere_uid, lockedWhere_uid] at same
    exact seated.unique first second former latter one two same
  · intro slot vault here
    obtain ⟨before, kept, rfl⟩ := old here
    obtain ⟨handle, held⟩ := seated.held slot before kept
    unfold lockedWhere
    split
    · exact ⟨vaultLock handle, by simp [held]⟩
    · exact ⟨handle, held⟩
  · intro slot vault here
    obtain ⟨before, kept, rfl⟩ := old here
    have path := seated.path slot before kept
    rw [lockedWhere_uid]
    unfold lockedWhere
    split
    · exact path
    · exact path

theorem lockEach_find (due : UserVault → Bool) (seated : table.Seated) (uid : Uid) : (table.lockEach due).2.find uid =
    (table.find uid).map (lockedWhere due) := by
  refine Option.ext fun vault => ?_
  rw [find_iff (lockEach_seated seated), Option.map_eq_some_iff]
  constructor
  · rintro ⟨slot, here, same⟩
    rw [lockEach_vaults] at here
    obtain ⟨before, held, rfl⟩ := Option.map_eq_some_iff.mp here
    rw [lockedWhere_uid] at same
    exact ⟨before, (find_iff seated).mpr ⟨slot, held, same⟩, rfl⟩
  · rintro ⟨before, found, rfl⟩
    obtain ⟨slot, held, same⟩ := (find_iff seated).mp found
    exact ⟨slot, by rw [lockEach_vaults, held]; rfl, by rw [lockedWhere_uid, same]⟩

theorem mem_lockEach (seated : table.Seated) :
    uid ∈ (table.lockEach due).1 ↔ ∃ vault, table.find uid = some vault ∧ vault.isUnlocked = true ∧ due vault = true := by
  unfold lockEach
  rw [List.mem_filterMap]
  constructor
  · rintro ⟨slot, -, here⟩
    obtain ⟨vault, chosen, rfl⟩ := Option.map_eq_some_iff.mp here
    obtain ⟨held, both⟩ := Option.filter_eq_some_iff.mp chosen
    exact ⟨vault, (find_iff seated).mpr ⟨slot, held, rfl⟩, by simpa using both⟩
  · rintro ⟨vault, found, both⟩
    obtain ⟨slot, held, rfl⟩ := (find_iff seated).mp found
    refine ⟨slot, List.mem_finRange slot, Option.map_eq_some_iff.mpr ⟨vault, Option.filter_eq_some_iff.mpr ⟨held, ?_⟩, rfl⟩⟩
    simpa using both

end VaultTable

/-- What a daemon of one user is asked. -/
inductive OwnRequest
  | call (env : Env) (call : UserCall)
  | idleTimeout (shuttingDown : Bool) (timeout : Int) (now : UInt64)
  | session (shuttingDown : Bool) (signal : SessionSignal)

def lockOwn (uid : Uid) (due : UInt64 → Bool) (slot : VaultSlot) : List Uid × VaultSlot :=
  if slot.handle.any (!·.contents.locked) && due slot.unlockedAt then
    ([uid], { slot with handle := slot.handle.map vaultLock }) else ([], slot)

section
variable (otpImportFromQr : OtpImport) (lib : Primitives) (argon2id : Argon2id) (uid : Uid)

def ownStep (request : OwnRequest) (slot : VaultSlot) : VaultOutcome × VaultSlot :=
  match request with
  | .call env call => call.run otpImportFromQr lib argon2id env slot
  | .idleTimeout shuttingDown timeout now =>
    Prod.map .swept id (lockOwn uid (fun unlockedAt => !shuttingDown && !decide
      (timeout ≤ 0) && idleFor timeout now unlockedAt) slot)
  | .session shuttingDown signal => Prod.map .swept id (lockOwn uid (fun _ => !shuttingDown && signal.locks) slot)

def alone : Machine VaultSlot OwnRequest VaultOutcome where
  step := ownStep otpImportFromQr lib argon2id uid
  halts := VaultOutcome.faults

/-- The requests that concern a user. Methods of others do not; there is a slot for the user, or not. -/
def ownRequest (table : VaultTable) : VaultRequest → Option OwnRequest
  | .user who env call => if who = uid then some (.call { env with slotFree := table.hasRoom uid } call) else none
  | .idleTimeout shuttingDown timeout now => some (.idleTimeout shuttingDown timeout now)
  | .session shuttingDown signal => some (.session shuttingDown signal)

def VaultOutcome.to : VaultOutcome → VaultOutcome
  | .swept locked => .swept (if uid ∈ locked then [uid] else [])
  | outcome => outcome

end

namespace VaultTable
variable {table : VaultTable} {uid : Uid}

/-- A user sees whether the own vault is one of those that are locked. -/
theorem lockEach_due (seated : table.Seated) (due : UInt64 → Bool) (uid : Uid) :
    ((table.view uid).handle.any (!·.contents.locked) && due (table.view uid).unlockedAt) = true ↔
      uid ∈ (table.lockEach fun vault => due vault.unlockedAt).1 := by
  rw [mem_lockEach seated, view_eq]
  cases found : table.find uid with
  | none => simp
  | some vault => simp [UserVault.isUnlocked]

theorem lockEach_own (seated : table.Seated) (due : UInt64 → Bool) (uid : Uid) :
    lockOwn uid due (table.view uid) =
      (if uid ∈ (table.lockEach fun vault => due vault.unlockedAt).1 then [uid] else [],
        (table.lockEach fun vault => due vault.unlockedAt).2.view uid) := by
  have after := lockEach_find (fun vault => due vault.unlockedAt) seated uid
  have same := lockEach_due seated due uid
  have later : (table.lockEach fun vault => due vault.unlockedAt).2.view uid =
      { file := table.files (table.stateDir.vaultPath uid), handle := ((table.find uid).map (lockedWhere fun vault => due vault.unlockedAt)).bind (·.handle),
        unlockedAt := (((table.find uid).map (lockedWhere fun vault => due vault.unlockedAt)).map
          (·.unlockedAt)).getD 0 } := by
    rw [view_eq, after]
    rfl
  rw [later, lockOwn]
  by_cases member : uid ∈ (table.lockEach fun vault => due vault.unlockedAt).1
  · obtain ⟨vault, found, unlocked, here⟩ := (mem_lockEach seated).mp member
    rw [if_pos (same.mpr member), if_pos member, found, view_eq, found]
    simp [lockedWhere, unlocked, here]
  · rw [if_neg fun here => member (same.mp here), if_neg member, view_eq]
    cases found : table.find uid with
    | none => rfl
    | some vault =>
      have not : ¬ (vault.isUnlocked && due vault.unlockedAt) = true := fun both =>
        member ((mem_lockEach seated).mpr ⟨vault, found, by simpa using both⟩)
      simp [lockedWhere, not]

end VaultTable

section
variable (otpImportFromQr : OtpImport) (lib : Primitives) (argon2id : Argon2id) {table : VaultTable}

/-- A method, seen by its user and by another one. -/
theorem onUser_seen (seated : table.Seated) (who : Uid) (env : Env) (call : UserCall) :
    (table.onUser who (call.run otpImportFromQr lib argon2id) env).2.Seated ∧
    ((table.onUser who (call.run otpImportFromQr lib argon2id) env).1,
    (table.onUser who (call.run otpImportFromQr lib argon2id) env).2.view who) =
      call.run otpImportFromQr lib argon2id { env with slotFree := table.hasRoom who } (table.view who) ∧
    ∀ other, other ≠ who → (table.onUser who (call.run otpImportFromQr lib argon2id) env).2.view other =
      table.view other := by
  have leaves := call.run_leaves otpImportFromQr lib argon2id { env with slotFree := table.hasRoom who } (table.view who)
  have tidy := leaves.tidy (VaultTable.view_tidy seated who)
  unfold VaultTable.onUser
  dsimp only
  refine ⟨VaultTable.put_seated seated leaves.room, ?_, fun other apart => VaultTable.view_put_other seated leaves.room apart⟩
  rw [VaultTable.view_put seated leaves.room tidy]

theorem lockEach_never (table : VaultTable) {due : UserVault → Bool} (never : ∀ vault, due vault = false) :
    table.lockEach due = ([], table) := by
  have none (vault : UserVault) : (vault.isUnlocked && due vault) = false := by rw [never vault, Bool.and_false]
  refine Prod.ext ?_ ?_
  · simp [VaultTable.lockEach, none]
  · simp [VaultTable.lockEach, none]

theorem checkVaultIdleTimeout_eq (table : VaultTable) (shuttingDown : Bool) (timeout : Int) (now : UInt64) :
    table.checkVaultIdleTimeout shuttingDown timeout now =
      table.lockEach fun vault => !shuttingDown && !decide (timeout ≤ 0) && idleFor timeout now vault.unlockedAt := by
  unfold VaultTable.checkVaultIdleTimeout
  cases shuttingDown with
  | true => exact (lockEach_never table fun _ => rfl).symm
  | false =>
    by_cases off : timeout ≤ 0
    · rw [if_pos off, lockEach_never table fun vault => by simp [off]]
      rfl
    · simp [off]

theorem handleSessionLockSignal_eq (table : VaultTable) (shuttingDown : Bool) (signal : SessionSignal) :
    table.handleSessionLockSignal shuttingDown signal = table.lockEach fun _ => !shuttingDown && signal.locks := by
  unfold VaultTable.handleSessionLockSignal
  cases shuttingDown with
  | true => exact (lockEach_never table fun _ => rfl).symm
  | false =>
    cases locks : signal.locks with
    | true => rfl
    | false => exact (lockEach_never table fun _ => rfl).symm

/-- Only of a loop that locks does a user see less. -/
theorem outcome_to (call : UserCall) (env : Env) (slot : VaultSlot) (uid : Uid) :
    (call.run otpImportFromQr lib argon2id env slot).1.to uid = (call.run otpImportFromQr lib argon2id env slot).1 := by
  cases call <;> rfl

theorem step_seen (seated : table.Seated) (uid : Uid) (request : VaultRequest) :
    (table.step otpImportFromQr lib argon2id request).2.Seated ∧
    match ownRequest uid table request with
    | none => (table.step otpImportFromQr lib argon2id request).2.view uid = table.view uid
    | some own => ownStep otpImportFromQr lib argon2id uid own (table.view uid) =
        ((table.step otpImportFromQr lib argon2id request).1.to uid,
        (table.step otpImportFromQr lib argon2id request).2.view uid) := by
  have swept (due : UInt64 → Bool) (swept : List Uid × VaultTable)
    (is : swept = table.lockEach fun vault => due vault.unlockedAt) :
      swept.2.Seated ∧ Prod.map VaultOutcome.swept id (lockOwn uid due (table.view uid)) =
        ((VaultOutcome.swept swept.1).to uid, swept.2.view uid) := by
    subst is
    refine ⟨VaultTable.lockEach_seated seated, ?_⟩
    rw [VaultTable.lockEach_own seated]
    rfl
  cases request with
  | user who env call =>
    obtain ⟨kept, own, others⟩ := onUser_seen otpImportFromQr lib argon2id seated who env call
    refine ⟨kept, ?_⟩
    by_cases mine : who = uid
    · subst mine
      have asked : ownRequest who table (.user who env call) =
        some (.call { env with slotFree := table.hasRoom who } call) := if_pos rfl
      have outcome := congrArg Prod.fst own
      dsimp only at outcome
      rw [asked]
      change call.run otpImportFromQr lib argon2id { env with slotFree := table.hasRoom who } (table.view who) = _
      rw [← own]
      refine Prod.ext ?_ rfl
      change _ = ((table.onUser who (call.run otpImportFromQr lib argon2id) env).1).to who
      rw [outcome, outcome_to]
    · have silent : ownRequest uid table (.user who env call) = none := if_neg mine
      rw [silent]
      exact others uid fun is => mine is.symm
  | idleTimeout shuttingDown timeout now =>
    exact swept (fun unlockedAt => !shuttingDown && !decide (timeout ≤ 0) && idleFor timeout now unlockedAt) _
      (checkVaultIdleTimeout_eq table shuttingDown timeout now)
  | session shuttingDown signal =>
    exact swept (fun _ => !shuttingDown && signal.locks) _ (handleSessionLockSignal_eq table shuttingDown signal)

def userPart (uid : Uid) : (vaults otpImportFromQr lib argon2id).Part (alone otpImportFromQr lib argon2id uid) where
  good := VaultTable.Seated
  view table := table.view uid
  input table := ownRequest uid table
  outcome := VaultOutcome.to uid
  keeps request seated := (step_seen otpImportFromQr lib argon2id seated uid request).1
  apart {table request} seated silent := by
    have seen := (step_seen otpImportFromQr lib argon2id seated uid request).2
    rw [silent] at seen
    exact seen
  own {table request own} seated here := by
    have seen := (step_seen otpImportFromQr lib argon2id seated uid request).2
    rw [here] at seen
    exact seen
  halts {table request own} _ _ := by
    have same (outcome : VaultOutcome) : (outcome.to uid).faults = outcome.faults := by cases outcome <;> rfl
    exact same _

/-- The daemon has just started. -/
def VaultTable.started (stateDir : StatePath) (files : Bytes → Option Bytes) : VaultTable where
  stateDir
  vaults _ := none
  files

theorem started_seated (stateDir : StatePath) (files : Bytes → Option Bytes) :
    (VaultTable.started stateDir files).Seated where
  unique _ _ _ _ here := by cases here
  held _ _ here := by cases here
  path _ _ here := by cases here

def seenBy (uid : Uid) (event : Event VaultTable VaultRequest VaultOutcome) :
    Option (Event VaultSlot OwnRequest VaultOutcome) :=
  (ownRequest uid event.before event.input).map fun own =>
    { before := event.before.view uid, input := own, outcome := event.outcome.to uid, after := event.after.view uid }

/-- The user who calls. -/
def VaultRequest.caller : VaultRequest → Option Uid
  | .user uid _ _ => some uid
  | .idleTimeout _ _ _ => none
  | .session _ _ => none

def VaultTable.Holds (table : VaultTable) (uid : Uid) : Prop := ∃ slot vault, table.vaults slot = some vault ∧ vault.uid = uid

/-- Where nobody else has a slot but users of a set of no more than 64, there is room for each of them. -/
theorem hasRoom_of_few (seated : table.Seated) {users : Finset Uid} (few : users.card ≤ maxVaults)
    (holders : ∀ uid, table.Holds uid → uid ∈ users)
    {uid : Uid} (own : uid ∈ users) : table.hasRoom uid = true := by
  by_contra full
  have both : table.slotOf uid = none ∧ table.freeSlot = none := by simpa [VaultTable.hasRoom, not_or] using full
  have each (slot : Fin maxVaults) : ∃ vault, table.vaults slot = some vault :=
    Option.ne_none_iff_exists'.mp (VaultTable.freeSlot_none.mp both.2 slot)
  choose vault held using each
  have distinct : Function.Injective fun slot => (vault slot).uid := fun first second same =>
    seated.unique first second _ _ (held first) (held second) same
  have inside : Finset.univ.image (fun slot => (vault slot).uid) ⊆ users.erase uid := by
    intro other member
    obtain ⟨slot, -, rfl⟩ := Finset.mem_image.mp member
    exact Finset.mem_erase.mpr ⟨VaultTable.slotOf_none.mp both.1 slot _ (held slot), holders _ ⟨slot, _, held slot, rfl⟩⟩
  have count := Finset.card_le_card inside
  rw [Finset.card_image_of_injective _ distinct, Finset.card_univ, Fintype.card_fin, Finset.card_erase_of_mem own] at count
  have some : 0 < users.card := Finset.card_pos.mpr ⟨uid, own⟩
  omega

theorem holds_iff (seated : table.Seated) (uid : Uid) : table.Holds uid ↔ table.find uid ≠ none := by
  rw [Option.ne_none_iff_exists']
  constructor
  · rintro ⟨slot, vault, held, rfl⟩
    exact ⟨vault, (VaultTable.find_iff seated).mpr ⟨slot, held, rfl⟩⟩
  · rintro ⟨vault, found⟩
    obtain ⟨slot, held, same⟩ := (VaultTable.find_iff seated).mp found
    exact ⟨slot, vault, held, same⟩

theorem step_holds (seated : table.Seated) {request : VaultRequest} {uid : Uid}
    (holds : (table.step otpImportFromQr lib argon2id request).2.Holds uid) :
    table.Holds uid ∨ request.caller = some uid := by
  have kept := (step_seen otpImportFromQr lib argon2id seated uid request).1
  have swept (due : UserVault → Bool) (holds : (table.lockEach due).2.Holds uid) : table.Holds uid := by
    rw [holds_iff (VaultTable.lockEach_seated seated), VaultTable.lockEach_find _ seated] at holds
    exact (holds_iff seated uid).mpr fun none => holds (by rw [none]; rfl)
  cases request with
  | user who env call =>
    by_cases mine : who = uid
    · exact .inr (congrArg some mine)
    · left
      have leaves := call.run_leaves otpImportFromQr lib argon2id { env with slotFree := table.hasRoom who } (table.view who)
      have same := VaultTable.put_find seated leaves.room uid
      rw [if_neg fun is => mine is.symm] at same
      rw [holds_iff kept] at holds
      rw [holds_iff seated, ← same]
      exact holds
  | idleTimeout shuttingDown timeout now =>
    have is := checkVaultIdleTimeout_eq table shuttingDown timeout now
    have after : (table.checkVaultIdleTimeout shuttingDown timeout now).2.Holds uid := holds
    rw [is] at after
    exact .inl (swept _ after)
  | session shuttingDown signal =>
    have is := handleSessionLockSignal_eq table shuttingDown signal
    have after : (table.handleSessionLockSignal shuttingDown signal).2.Holds uid := holds
    rw [is] at after
    exact .inl (swept _ after)

/-- In a run from the start, only users that have called have slots. -/
theorem run_holds (stateDir : StatePath) (files : Bytes → Option Bytes) (requests : List VaultRequest) :
    ∀ event ∈ (vaults otpImportFromQr lib argon2id).run (.started stateDir files) requests,
      event.before.Seated ∧ ∀ uid, event.before.Holds uid → ∃ request ∈ requests, request.caller = some uid := by
  have every : Throughout ((vaults otpImportFromQr lib argon2id).run (.started stateDir files) requests) fun past event =>
      event.before.Seated ∧ ∀ uid, event.before.Holds uid → ∃ earlier ∈ past, earlier.input.caller = some uid := by
    refine Machine.run_every (fun past table => table.Seated ∧ ∀ uid, table.Holds uid →
      ∃ earlier ∈ past, earlier.input.caller = some uid)
      (fun past table request before => ?_) (fun _ _ _ before => before) ⟨started_seated stateDir files, ?_⟩ requests
    · refine ⟨(step_seen otpImportFromQr lib argon2id before.1 0 request).1, fun uid holds => ?_⟩
      obtain held | called := step_holds otpImportFromQr lib argon2id before.1 holds
      · obtain ⟨earlier, inside, same⟩ := before.2 uid held
        exact ⟨earlier, List.mem_append_left _ inside, same⟩
      · exact ⟨_, List.mem_append_right _ (List.mem_singleton_self _), called⟩
    · rintro uid ⟨slot, vault, held, -⟩
      cases held
  intro event inside
  obtain ⟨front, back, shape⟩ := List.append_of_mem inside
  obtain ⟨seated, callers⟩ := every front event back shape
  refine ⟨seated, fun uid holds => ?_⟩
  obtain ⟨earlier, before, same⟩ := callers uid holds
  exact ⟨earlier.input, Machine.input_mem (shape ▸ List.mem_append_left _ before), same⟩

/-- What is left when a handle was found or made, and the slot that it is in. -/
def Ensured (table : VaultTable) (uid : Uid) (result : Except Stop Handle) :
    Except Stop (Fin maxVaults) × VaultTable → Prop :=
  match result with
  | .error stop => (· = (.error stop, table))
  | .ok handle =>
    fun ensured => ∃ slot, table.place uid = some slot ∧
      ensured = (.ok slot, table.put uid { table.view uid with handle := some handle })

/-- Nothing changes where the vault cannot be opened. -/
theorem close_taken {slot : Fin maxVaults} (free : table.vaults slot = none) (vault : UserVault) :
    (table.setVault slot (some vault)).closeUserVaultSlot slot = table := by
  have same : Function.update table.vaults slot none = table.vaults := free ▸ Function.update_eq_self slot table.vaults
  simp [VaultTable.closeUserVaultSlot, VaultTable.setVault, Function.update_idem, same]

theorem write_same (table : VaultTable) (uid : Uid) : table.write uid (table.view uid).file = table := by
  simp [VaultTable.write, VaultTable.view]

theorem ensureUserVaultHandle_ensured (seated : table.Seated) (uid : Uid) (env : Env) :
    Ensured table uid (ensureUserVaultHandle { env with slotFree := table.hasRoom uid } (table.view uid))
    (table.ensureUserVaultHandle uid env.store) := by
  have whole (handle : Handle) {slot : Fin maxVaults} (there : table.place uid = some slot) :
      table.put uid { table.view uid with handle := some handle } = table.setVault slot
        (some { uid, path := table.stateDir.vaultPath uid, handle := some handle, unlockedAt := (table.view uid).unlockedAt }) := by
    rw [VaultTable.put_some rfl there, write_same]
  unfold VaultTable.ensureUserVaultHandle
  rw [buildUserVaultPath_ok]
  dsimp only
  unfold VaultTable.findOrAllocUserVaultSlot
  cases found : table.slotOf uid with
  | some slot =>
    obtain ⟨vault, held, rfl⟩ := VaultTable.slotOf_some found
    obtain ⟨handle, own⟩ := seated.held slot vault held
    have path := seated.path slot vault held
    have there : table.place vault.uid = some slot := by rw [VaultTable.place, found]; rfl
    have seen : table.find vault.uid = some vault := (VaultTable.find_iff seated).mpr ⟨slot, held, rfl⟩
    have ensured : ensureUserVaultHandle { env with slotFree := table.hasRoom vault.uid } (table.view vault.uid) =
      .ok handle := by
      simp [ensureUserVaultHandle, VaultTable.view_eq, seen, own]
    have same : Function.update table.vaults slot (table.vaults slot) = table.vaults :=
      Function.update_eq_self slot table.vaults
    rw [ensured]
    dsimp only
    rw [held]
    dsimp only
    rw [own]
    refine ⟨slot, there, ?_⟩
    rw [whole handle there, VaultTable.view_eq, seen]
    have vaultIs : ({ uid := vault.uid, path := table.stateDir.vaultPath vault.uid, handle := some handle, unlockedAt := vault.unlockedAt } : UserVault) = vault := by
      rw [← path, ← own]
    have filled : table.setVault slot (some vault) = table := by
      rw [VaultTable.setVault, ← held, same]
    exact Prod.ext rfl ((congrArg (fun item => table.setVault slot (some item)) vaultIs).trans filled).symm
  | none =>
    have absent : table.find uid = none := VaultTable.find_none.mpr found
    have view : (table.view uid).handle = none ∧ (table.view uid).unlockedAt = 0 := by
      rw [VaultTable.view_eq, absent]
      exact ⟨rfl, rfl⟩
    cases free : table.freeSlot with
    | none =>
      have ensured : ensureUserVaultHandle { env with slotFree := table.hasRoom uid } (table.view uid) =
        .error (.error .state) := by
        simp [ensureUserVaultHandle, view.1, VaultTable.hasRoom, found, free]
      rw [ensured]
      rfl
    | some slot =>
      have there : table.place uid = some slot := by rw [VaultTable.place, found]; exact free
      have ensured : ensureUserVaultHandle { env with slotFree := table.hasRoom uid } (table.view uid) =
          vaultOpen env.store (table.files (table.stateDir.vaultPath uid)) := by
        simp [ensureUserVaultHandle, absent, VaultTable.hasRoom, found, free, VaultTable.view_eq]
      rw [ensured]
      dsimp only [Option.map_some]
      rw [VaultTable.vaults_setVault, if_pos rfl]
      dsimp only
      change Ensured table uid _ (match vaultOpen env.store (table.files (table.stateDir.vaultPath uid)) with
        | .error stop => _
        | .ok handle => _)
      cases vaultOpen env.store (table.files (table.stateDir.vaultPath uid)) with
      | error stop => exact Prod.ext rfl (close_taken (VaultTable.freeSlot_some free) _)
      | ok handle =>
        refine ⟨slot, there, Prod.ext rfl ?_⟩
        rw [whole handle there, view.2]
        simp [VaultTable.setVault, Function.update_idem]

/-- Whenever a method looks for the slot of its user, the loop over the slots finds what a daemon
of this user alone would find, or the first free one; nothing changes where no vault is opened. -/
theorem slots_are_found (stateDir : StatePath) (files : Bytes → Option Bytes) (requests : List VaultRequest) :
    Throughout ((vaults otpImportFromQr lib argon2id).run (.started stateDir files) requests) fun _ event => ∀ (uid :
    Uid) (env : Env),
      Ensured event.before uid (ensureUserVaultHandle { env with slotFree := event.before.hasRoom uid }
      (event.before.view uid))
        (event.before.ensureUserVaultHandle uid env.store) := by
  refine .of_forall fun event inside uid env => ?_
  exact ensureUserVaultHandle_ensured (run_holds otpImportFromQr lib argon2id stateDir files requests event inside).1 uid env

/-- What a daemon answers a user, and what becomes of the user's vault and its file, is what a
daemon of this user alone makes of the same requests. What others do only tells whether there is
a slot for the user, and there always is one where no more than 64 users call. -/
theorem users_are_apart (stateDir : StatePath) (files : Bytes → Option Bytes) (requests : List VaultRequest) (uid : Uid) :
    let events := (vaults otpImportFromQr lib argon2id).run (.started stateDir files) requests
    events.filterMap (seenBy uid) = (alone otpImportFromQr lib argon2id uid).run
        { file := files (stateDir.vaultPath uid), handle := none, unlockedAt := 0 }
          (events.filterMap fun event => ownRequest uid event.before event.input) ∧
      ((requests.filterMap VaultRequest.caller).toFinset.card ≤ maxVaults →
        ∀ event ∈ events, ∀ who env call, event.input = .user who env call → event.before.hasRoom who = true) := by
  intro events
  constructor
  · exact (userPart otpImportFromQr lib argon2id uid).run (started_seated stateDir files) requests
  · intro few event inside who env call asked
    obtain ⟨seated, holders⟩ := run_holds otpImportFromQr lib argon2id stateDir files requests event inside
    have known (uid : Uid) (request : VaultRequest) (member : request ∈ requests) (caller : request.caller = some uid) :
        uid ∈ (requests.filterMap VaultRequest.caller).toFinset :=
          List.mem_toFinset.mpr (List.mem_filterMap.mpr ⟨request, member, caller⟩)
    refine hasRoom_of_few seated few (fun uid holds => ?_)
      (known who event.input (Machine.input_mem inside) (by rw [asked]; rfl))
    obtain ⟨request, member, caller⟩ := holders uid holds
    exact known uid request member caller

end

end Hiya.Daemon.Vaults
