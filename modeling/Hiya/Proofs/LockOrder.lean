import Hiya.Daemon.Locks

/-! The order of the two locks within one call. Taken by itself every handler and every
task takes `data_lock` before `fp_lock`, gives back what it has taken, and runs the main
loop under `fp_lock` at most. -/

namespace Hiya.Daemon.Locks
open Library Routine

def rank : Lock → Nat
  | .data => 0
  | .fp => 1

def Calm (key : Lock) : Prop := key = .fp

abbrev Ordered {α : Type} (held : List Lock) (act : Act α) (last : List Lock) : Prop := Orderly rank Calm held act last

section
variable (setup : Setup)

private theorem ordered_tableLook : Ordered [] tableLook [] := by simp [tableLook]

private theorem ordered_tableAccess : Ordered [] tableAccess [] := by
  simp only [tableAccess, orderly_decides, Bool.forall_bool]
  exact ⟨ordered_tableLook, rfl⟩

private theorem ordered_bioFpEnroll : Ordered [.fp] bioFpEnroll [.fp] := by simp [bioFpEnroll, Calm]

private theorem ordered_bioFpDeleteAllPrints {held : List Lock} (calm : ∀ key ∈ held, Calm key) :
    Ordered held (bioFpDeleteAllPrints setup) held := by
  unfold bioFpDeleteAllPrints
  split
  · exact rfl
  · simpa using calm

private theorem ordered_enrollRetrying : Ordered [.fp] (enrollRetrying setup) [.fp] := by
  refine ordered_bioFpEnroll.bind fun enrolled => ?_
  cases enrolled with
  | ok => exact rfl
  | failed => exact rfl
  | alreadyEnrolled =>
    refine (ordered_bioFpDeleteAllPrints setup (by simp [Calm])).bind fun cleared => ?_
    cases cleared with
    | false => exact rfl
    | true => exact ordered_bioFpEnroll.bind fun _ => rfl

private theorem ordered_ensureUserVaultHandle : Ordered [] ensureUserVaultHandle [] := by simp [ensureUserVaultHandle]

private theorem ordered_autoUnlockUserVault : Ordered [] (autoUnlockUserVault setup) [] := by
  refine ordered_ensureUserVaultHandle.bind fun opened => ?_
  cases opened with
  | false => exact rfl
  | true =>
    cases setup.tpmAvailable with
    | false => simp
    | true => simp [ordered_tableLook]

private theorem ordered_vaultAccess : Ordered [] vaultAccess [] := by
  simp only [vaultAccess, orderly_decides, Bool.forall_bool]
  refine ⟨ordered_ensureUserVaultHandle.bind fun opened => ?_, rfl⟩
  cases opened with
  | false => exact rfl
  | true => simp [ordered_tableLook]

private theorem ordered_verifyTemplates : Ordered [] (verifyTemplates setup) [] := by
  have missed : Ordered [] (tableLook >>= fun _ => pure ()) [] := ordered_tableLook.bind fun _ => rfl
  have found : Ordered [] (tableLook >>= fun _ => autoUnlockUserVault setup) [] :=
    ordered_tableLook.bind fun _ => ordered_autoUnlockUserVault setup
  cases sensor : setup.fpDev with
  | false => simp [verifyTemplates, sensor]
  | true => simpa [verifyTemplates, sensor] using ⟨missed, found⟩

private theorem ordered_bioDaemonVerifyUser : Ordered [] (bioDaemonVerifyUser setup) [] := by
  have told (matched : Bool) : Ordered [] (tableLook >>= fun _ => pure matched) [] := ordered_tableLook.bind fun _ => rfl
  cases sensor : setup.fpDev with
  | false => simp [bioDaemonVerifyUser, sensor]
  | true => simpa [bioDaemonVerifyUser, sensor] using ⟨told false, told true⟩

private theorem ordered_authenticateWith : Ordered [] (authenticateWith setup) [] := by
  simp only [authenticateWith, orderly_decides, Bool.forall_bool]
  refine ⟨(ordered_bioDaemonVerifyUser setup).bind fun matched => ?_, rfl⟩
  cases matched with
  | false => simp [ordered_autoUnlockUserVault]
  | true => exact ordered_autoUnlockUserVault setup

private theorem ordered_mayEnroll : Ordered [] (mayEnroll setup) [] := by
  cases available : setup.tpmAvailable with
  | false => simp [mayEnroll, available]
  | true => simp [mayEnroll, available]

private theorem ordered_enrollAndSeal (tpmRequire : Bool) : Ordered [] (enrollAndSeal setup tpmRequire) [] := by
  simp only [enrollAndSeal, orderly_take, orderly_decides, Bool.forall_bool]
  refine ⟨by simp, (ordered_enrollRetrying setup).bind fun enrolled => ?_, by simp⟩
  cases enrolled with
  | false => simp
  | true =>
    cases setup.tpmAvailable with
    | false => simp
    | true => cases tpmRequire <;> simp

private theorem ordered_enroll : Ordered [] (enroll setup) [] := by
  cases sensor : setup.fpDev with
  | false => simp [enroll, sensor]
  | true =>
    simp only [enroll, sensor, orderly_decides, Bool.forall_bool]
    refine ⟨(ordered_mayEnroll setup).bind fun allowed => ?_, rfl⟩
    cases allowed with
    | none => exact rfl
    | some tpmRequire =>
      refine (ordered_enrollAndSeal setup tpmRequire).bind fun enrolled => ?_
      cases enrolled with
      | false => exact rfl
      | true => exact ordered_tableLook

private theorem ordered_enrollOnly : Ordered [] enrollOnly [] := by
  simp only [enrollOnly, orderly_take, orderly_decides, Bool.forall_bool]
  exact ⟨by simp, ordered_bioFpEnroll.bind fun _ => by simp, by simp⟩

private theorem ordered_sealAndStore (tpmRequire : Bool) : Ordered [] (sealAndStore setup tpmRequire) [] := by
  cases available : setup.tpmAvailable with
  | false => simp [sealAndStore, available]
  | true => cases tpmRequire <;> simp [sealAndStore, available, rank]

private theorem ordered_bioDaemonEnrollUser : Ordered [] (bioDaemonEnrollUser setup) [] := by
  cases sensor : setup.fpDev with
  | false => simp [bioDaemonEnrollUser, sensor]
  | true =>
    simp only [bioDaemonEnrollUser, sensor, orderly_decides, Bool.forall_bool]
    refine ⟨(ordered_mayEnroll setup).bind fun allowed => ?_, rfl⟩
    cases allowed with
    | none => exact rfl
    | some tpmRequire =>
      refine ordered_enrollOnly.bind fun enrolled => ?_
      cases enrolled with
      | false => exact rfl
      | true => exact ordered_sealAndStore setup tpmRequire

private theorem ordered_clearDevice : Ordered [] (clearDevice setup) [] := by
  cases sensor : setup.fpDev with
  | false => simp [clearDevice, sensor]
  | true =>
    simp only [clearDevice, sensor, orderly_decides, Bool.forall_bool]
    refine ⟨⟨by simp, (ordered_bioFpDeleteAllPrints setup (by simp [Calm])).bind fun _ => by simp⟩, rfl⟩

private theorem ordered_bioDaemonDeleteEnrollments : Ordered [] (bioDaemonDeleteEnrollments setup) [] := by
  simp only [bioDaemonDeleteEnrollments, orderly_decides, Bool.forall_bool]
  refine ⟨ordered_tableLook.bind fun _ => ?_, rfl⟩
  cases setup.fpDev with
  | false => exact rfl
  | true => exact (ordered_bioFpDeleteAllPrints setup (by simp)).bind fun _ => rfl

private theorem ordered_commitFaceEnroll : Ordered [] commitFaceEnroll [] := by
  simp only [commitFaceEnroll, orderly_decides, Bool.forall_bool]
  exact ⟨ordered_tableLook.bind fun _ => by simp [ordered_tableLook], rfl⟩

theorem ordered_act (handler : Handler) : Ordered [] (handler.act setup) [] := by
  have vault : Ordered [] (ensureUserVaultHandle >>= fun _ => pure ()) [] := ordered_ensureUserVaultHandle.bind fun _ => rfl
  cases handler with
  | authenticate | authenticateInteractive => exact ordered_authenticateWith setup
  | enroll => exact ordered_enroll setup
  | startFingerEnroll => simpa [Handler.act, startFingerEnroll] using ordered_bioDaemonEnrollUser setup
  | clearDevice => exact ordered_clearDevice setup
  | verify | verifyUser => exact ordered_verifyTemplates setup
  | commitFaceEnroll => exact ordered_commitFaceEnroll
  | vaultStatus | lockVault => exact vault
  | getLocked => simpa [Handler.act, getLocked] using vault
  | deleteEnrolledFingers | deleteEnrolledFingers2 => exact ordered_bioDaemonDeleteEnrollments setup
  | verifyStart | enrollStart | lockless => exact rfl
  | deleteEnrollment | removeFinger | getEnrolledFingers | listEnrolledFingers | startFaceEnroll | getEnrollFrame | abortEnroll
  | fprintdListEnrolledFingers | sweepExpiredSessions | checkVaultIdleTimeout | handleSessionLockSignal | reloadDaemonConfig =>
    exact ordered_tableAccess
  | _ => exact ordered_vaultAccess

theorem ordered_task {handler : Handler} {act : Act Unit} (started : handler.task setup = some act) : Ordered [] act [] := by
  cases handler with
  | verifyStart =>
    cases started
    simp only [fprintdAsyncThreadFunc, orderly_decides, Bool.forall_bool]
    exact ⟨(ordered_bioDaemonVerifyUser setup).bind fun _ => rfl, rfl⟩
  | enrollStart =>
    cases started
    simp only [fprintdAsyncThreadFunc, orderly_decides, Bool.forall_bool]
    exact ⟨ordered_bioDaemonEnrollUser setup, rfl⟩
  | _ => cases started

end

end Hiya.Daemon.Locks
