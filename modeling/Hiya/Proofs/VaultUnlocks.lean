import Hiya.Proofs.VaultTables

/-! When a vault is unlocked. Only the recognition of its user unlocks it, with the key that the
TPM keeps for it, and it is locked by its user, by the timer, and with the session or before the
system sleeps. -/

namespace Hiya.Daemon.Vaults
open Library Pm Pm.Store
open Pm.Format (Primitives Stop CompositeMode masterKeySize)

def Unlocked (slot : VaultSlot) : Prop := ∃ handle, slot.handle = some handle ∧ handle.contents.locked = false

def biometricOnly : CompositeMode where
  usePassword := false
  useBiometric := true
  useKeyfile := false
  useYubikey := false

/-- A call that did what it was asked for. -/
def VaultOutcome.succeeds : VaultOutcome → Prop
  | .changed reply => ∃ value, reply = .ok value
  | .read reply => ∃ text, reply = .ok text
  | .unlocked result => result = .ok ()
  | .flag _ => False
  | .swept _ => False

section
variable {env : Env} {slot : VaultSlot} {handle : Handle}

theorem ensured_unlocked (found : ensureUserVaultHandle env slot = .ok handle)
    (unlocked : handle.contents.locked = false) : slot.handle = some handle := by
  obtain same | ⟨-, locked⟩ := ensured found
  · exact same
  · rw [unlocked] at locked
    cases locked

/-- A handle that is there before and after: it is unlocked only if it was. -/
theorem unlocked_of_ensured (found : ensureUserVaultHandle env slot = .ok handle) {unlockedAt : UInt64}
    (unlocked : Unlocked { slot with handle := some handle, unlockedAt }) : Unlocked slot := by
  obtain ⟨own, same, unlocked⟩ := unlocked
  cases same
  exact ⟨handle, ensured_unlocked found unlocked, unlocked⟩

/-- The time of the last use stays, or the call was a success and is the last use. -/
def Dated (env : Env) (slot : VaultSlot) (result : VaultOutcome × VaultSlot) : Prop :=
  result.2.unlockedAt = slot.unlockedAt ∨ result.1.succeeds ∧ result.2.unlockedAt = env.now

theorem applyPlan_dated (lib : Primitives) (texts : Texts) (plan : Plan) (handle : Handle) :
    Dated env slot (Prod.map .changed id (applyPlan lib env texts plan handle slot)) := by
  unfold applyPlan
  dsimp only
  split
  · exact .inl rfl
  · split
    · exact .inl rfl
    · split
      · exact .inl rfl
      · exact .inr ⟨⟨_, rfl⟩, rfl⟩

theorem changeVault_unlocked (env : Env) (slot : VaultSlot) (lib : Primitives) (texts : Texts)
    (checked : Except MethodError Unit) (plan : VaultHandle → Except MethodError Plan) :
    (Unlocked (changeVault lib env texts checked plan slot).2 → Unlocked slot) ∧
      Dated env slot (Prod.map .changed id (changeVault lib env texts checked plan slot)) := by
  unfold changeVault
  split
  · exact ⟨id, .inl rfl⟩
  · split
    · exact ⟨id, .inl rfl⟩
    · exact ⟨id, .inl rfl⟩
    next found =>
      dsimp only
      split
      · exact ⟨unlocked_of_ensured found, .inl rfl⟩
      next unlocked =>
        have held := ensured_unlocked found (by simpa using unlocked)
        have before : Unlocked slot := ⟨_, held, by simpa using unlocked⟩
        split
        · exact ⟨fun _ => before, .inl rfl⟩
        · exact ⟨fun _ => before, applyPlan_dated lib texts _ _⟩

theorem answerRead_unlocked (env : Env) (slot : VaultSlot) (call : ReadCall) : (Unlocked (answerRead env call slot).2 →
    Unlocked slot) ∧
    Dated env slot (Prod.map .read id (answerRead env call slot)) := by
  rw [answerRead_eq]
  obtain ⟨refusal, is⟩ | ⟨handle, refusal, found, is⟩ | ⟨handle, text, found, -, -, -, is⟩ :=
    readVault_cases env slot call.checked call.fails call.build
  · rw [is]
    exact ⟨id, .inl rfl⟩
  · rw [is]
    exact ⟨unlocked_of_ensured found, .inl rfl⟩
  · rw [is]
    exact ⟨unlocked_of_ensured found, .inr ⟨⟨text, rfl⟩, rfl⟩⟩

theorem lockVault_locks : ¬ Unlocked (lockVault env slot).2 := by
  have absent (none : slot.handle = none) : ¬ Unlocked slot := fun ⟨handle, held, _⟩ => by
    rw [none] at held
    cases held
  have nothing {stop : Stop} (failed : ensureUserVaultHandle env slot = .error stop) : slot.handle = none := by
    unfold ensureUserVaultHandle at failed
    cases held : slot.handle with
    | none => rfl
    | some handle =>
      rw [held] at failed
      cases failed
  unfold lockVault
  split
  next failed => exact absent (nothing failed)
  next failed => exact absent (nothing failed)
  next handle found =>
    rintro ⟨own, same, unlocked⟩
    cases same
    split at unlocked
    next locked =>
      rw [locked] at unlocked
      cases unlocked
    next => cases unlocked

theorem lockedProperty_unlocked (env : Env) (slot : VaultSlot) : (Unlocked (lockedProperty env slot).2 →
    Unlocked slot) ∧ (lockedProperty env slot).2.unlockedAt = slot.unlockedAt := by
  unfold lockedProperty
  split
  · exact ⟨id, rfl⟩
  · exact ⟨id, rfl⟩
  next found => exact ⟨unlocked_of_ensured found, rfl⟩

/-- A key is only there for a vault that asks for the finger alone. -/
theorem Recognized.key_ok {around : Recognized} {mode : CompositeMode} {key : Buf masterKeySize}
    (given : around.key mode = .ok key) :
    mode = biometricOnly ∧ around.tpmAvailable = true ∧ around.shuttingDown = false ∧ around.wrappingKey = .ok key := by
  obtain ⟨password, biometric, keyfile, yubikey⟩ := mode
  unfold Recognized.key at given
  split at given
  · cases given
  · split at given
    · cases given
    next both =>
      split at given
      · cases given
      next finger =>
        split at given
        · cases given
        next tpm =>
          split at given
          · cases given
          · split at given
            · cases given
            next running =>
              split at given
              · cases given
              next sealed =>
                split at given
                · cases given
                next file =>
                  split at given
                  · cases given
                  next token =>
                    cases given
                    simp only [Bool.not_eq_true, Bool.not_eq_true', Bool.not_eq_false,
                      Bool.and_eq_false_iff] at both finger tpm running file token
                    simp_all [biometricOnly]

theorem vaultUnlock_mode {argon2id : Argon2id} {lib : Primitives} {store : Store.Env} {factors : Factors}
    {file : Option Bytes} {opened : Handle}
    (done : vaultUnlock argon2id lib store factors file handle = .ok opened) : opened.mode = handle.mode := by
  unfold vaultUnlock at done
  split at done
  · cases done
    rfl
  · simp only [bind_eq_ok] at done
    obtain ⟨_, _, _, _, _, _, _, _, done⟩ := done
    cases done
    rfl

structure Opens (around : Recognized) (outcome : VaultOutcome) (after : VaultSlot) : Prop where
  success : outcome = .unlocked (.ok ())
  tpm : around.tpmAvailable = true
  running : around.shuttingDown = false
  key : ∃ key, around.wrappingKey = .ok key
  mode : ∀ handle, after.handle = some handle → handle.mode = biometricOnly

theorem autoUnlock_unlocked (env : Env) (slot : VaultSlot) (lib : Primitives) (argon2id : Argon2id) (around : Recognized) :
    (Unlocked (autoUnlockUserVault lib argon2id around env slot).2 → Unlocked slot ∨
      Opens around (.unlocked (autoUnlockUserVault lib argon2id around env slot).1)
      (autoUnlockUserVault lib argon2id around env slot).2 ∧
        (autoUnlockUserVault lib argon2id around env slot).2.unlockedAt = env.now) ∧
      Dated env slot (Prod.map .unlocked id (autoUnlockUserVault lib argon2id around env slot)) := by
  unfold autoUnlockUserVault
  split
  · exact ⟨.inl, .inl rfl⟩
  next handle found =>
    dsimp only
    split
    · exact ⟨fun unlocked => .inl (unlocked_of_ensured found unlocked), .inl rfl⟩
    · split
      · exact ⟨fun unlocked => .inl (unlocked_of_ensured found unlocked), .inl rfl⟩
      next key given =>
        split
        · exact ⟨fun unlocked => .inl (unlocked_of_ensured found unlocked), .inl rfl⟩
        next opened done =>
          obtain ⟨mode, tpm, running, wrapped⟩ := Recognized.key_ok given
          refine ⟨fun _ => .inr ⟨⟨rfl, tpm, running, ⟨key, wrapped⟩, fun own same => ?_⟩, rfl⟩, .inr ⟨rfl, rfl⟩⟩
          cases same
          rw [vaultUnlock_mode done, mode]

theorem UserCall.run_unlocked (otpImportFromQr : OtpImport) (lib : Primitives) (argon2id : Argon2id) (env : Env)
    (slot : VaultSlot) (call : UserCall) :
    (Unlocked (call.run otpImportFromQr lib argon2id env slot).2 → Unlocked slot ∧ call ≠ .lockVault ∨
      ∃ around, call = .recognized around ∧
        Opens around (call.run otpImportFromQr lib argon2id env slot).1 (call.run otpImportFromQr lib argon2id env slot).2 ∧
        (call.run otpImportFromQr lib argon2id env slot).2.unlockedAt = env.now) ∧
      (Unlocked (call.run otpImportFromQr lib argon2id env slot).2 →
      Dated env slot (call.run otpImportFromQr lib argon2id env slot)) := by
  cases call with
  | change call =>
    obtain ⟨kept, dated⟩ := changeVault_unlocked env slot lib call.texts call.checked (call.plan otpImportFromQr env)
    exact ⟨fun unlocked => .inl ⟨kept unlocked, nofun⟩, fun _ => dated⟩
  | read call =>
    obtain ⟨kept, dated⟩ := answerRead_unlocked env slot call
    exact ⟨fun unlocked => .inl ⟨kept unlocked, nofun⟩, fun _ => dated⟩
  | lockVault => exact ⟨fun unlocked => absurd unlocked lockVault_locks, fun unlocked => absurd unlocked lockVault_locks⟩
  | locked =>
    obtain ⟨kept, same⟩ := lockedProperty_unlocked env slot
    exact ⟨fun unlocked => .inl ⟨kept unlocked, nofun⟩, fun _ => .inl same⟩
  | recognized around =>
    obtain ⟨opened, dated⟩ := autoUnlock_unlocked env slot lib argon2id around
    refine ⟨fun unlocked => ?_, fun _ => dated⟩
    obtain before | opens := opened unlocked
    · exact .inl ⟨before, nofun⟩
    · exact .inr ⟨around, rfl, opens⟩

theorem lockOwn_unlocked {uid : Uid} {due : UInt64 → Bool} (unlocked : Unlocked (lockOwn uid due slot).2) :
    Unlocked slot ∧ due slot.unlockedAt = false ∧ (lockOwn uid due slot).2 = slot := by
  unfold lockOwn at unlocked ⊢
  split at unlocked
  next locks =>
    obtain ⟨handle, held, open_⟩ := unlocked
    obtain ⟨before, -, rfl⟩ := Option.map_eq_some_iff.mp held
    cases open_
  next stays =>
    obtain ⟨handle, held, unlocked⟩ := unlocked
    have held : slot.handle = some handle := held
    have any : slot.handle.any (!·.contents.locked) = true := by simp [held, unlocked]
    rw [any, Bool.true_and, Bool.not_eq_true] at stays
    rw [any, stays]
    exact ⟨⟨handle, held, unlocked⟩, rfl, rfl⟩

end

/-- The user was recognized, and the vault unlocked. -/
def Opened (uid : Uid) (event : Event VaultTable VaultRequest VaultOutcome) : Prop :=
  ∃ env around, event.input = .user uid env (.recognized around) ∧ Opens around event.outcome (event.after.view uid)

/-- The user's vault has to be locked. -/
def Closes (uid : Uid) (event : Event VaultTable VaultRequest VaultOutcome) : Prop :=
  (∃ env, event.input = .user uid env .lockVault) ∨
  (∃ timeout now, event.input = .idleTimeout false timeout now ∧ 0 < timeout ∧
    idleFor timeout now (event.before.view uid).unlockedAt = true) ∨
  ∃ signal, event.input = .session false signal ∧ signal.locks = true

/-- At this time the vault did what the user asked for. -/
def Used (uid : Uid) (time : UInt64) (event : Event VaultTable VaultRequest VaultOutcome) : Prop :=
  ∃ env call, event.input = .user uid env call ∧ env.now = time ∧ event.outcome.succeeds

section
variable (otpImportFromQr : OtpImport) (lib : Primitives) (argon2id : Argon2id) {table : VaultTable} {uid : Uid}

theorem step_unlocked (uid : Uid) (seated : table.Seated) (request : VaultRequest)
    (unlocked : Unlocked (((vaults otpImportFromQr lib argon2id).event table request).after.view uid)) :
    let event := (vaults otpImportFromQr lib argon2id).event table request
    (Opened uid event ∨ Unlocked (table.view uid) ∧ ¬ Closes uid event) ∧
      (Used uid (event.after.view uid).unlockedAt event ∨
        Unlocked (table.view uid) ∧ (event.after.view uid).unlockedAt = (table.view uid).unlockedAt) := by
  intro event
  have seen := (step_seen otpImportFromQr lib argon2id seated uid request).2
  have swept {due : UInt64 → Bool}
      (same : Prod.map VaultOutcome.swept id (lockOwn uid due (table.view uid)) = (event.outcome.to uid,
        event.after.view uid))
      (closes : Closes uid event → due (table.view uid).unlockedAt = true) :
      (Opened uid event ∨ Unlocked (table.view uid) ∧ ¬ Closes uid event) ∧
        (Used uid (event.after.view uid).unlockedAt event ∨
          Unlocked (table.view uid) ∧ (event.after.view uid).unlockedAt = (table.view uid).unlockedAt) := by
    have after : (lockOwn uid due (table.view uid)).2 = event.after.view uid := congrArg Prod.snd same
    have unlocked : Unlocked (event.after.view uid) := unlocked
    rw [← after] at unlocked
    obtain ⟨before, fresh, stays⟩ := lockOwn_unlocked unlocked
    refine ⟨.inr ⟨before, fun closed => ?_⟩, .inr ⟨before, by rw [← after, stays]⟩⟩
    rw [closes closed] at fresh
    cases fresh
  cases request with
  | user who env call =>
    by_cases mine : who = uid
    · subst mine
      have asked : ownRequest who table (.user who env call) =
        some (.call { env with slotFree := table.hasRoom who } call) := if_pos rfl
      rw [asked] at seen
      have own : call.run otpImportFromQr lib argon2id { env with slotFree := table.hasRoom who } (table.view who) =
          (event.outcome.to who, event.after.view who) := seen
      have called := congrArg Prod.fst (onUser_seen otpImportFromQr lib argon2id seated who env call).2.1
      have outcome : event.outcome.to who = event.outcome := (congrArg Prod.fst own).symm.trans called.symm
      rw [outcome] at own
      obtain ⟨kept, dated⟩ := call.run_unlocked otpImportFromQr lib argon2id { env with slotFree := table.hasRoom who }
        (table.view who)
      rw [own] at kept dated
      have unlocked : Unlocked (event.after.view who) := unlocked
      constructor
      · obtain ⟨before, other⟩ | ⟨around, rfl, opens, -⟩ := kept unlocked
        · refine .inr ⟨before, ?_⟩
          rintro (⟨_, is⟩ | ⟨_, _, is, -⟩ | ⟨_, is, -⟩)
          · exact other (VaultRequest.user.inj is).2.2
          · cases is
          · cases is
        · exact .inl ⟨env, around, rfl, opens⟩
      · obtain same | ⟨success, now⟩ := dated unlocked
        · obtain ⟨before, -⟩ | ⟨around, rfl, opens, now⟩ := kept unlocked
          · exact .inr ⟨before, same⟩
          · have success : event.outcome = .unlocked (.ok ()) := opens.success
            have succeeds : event.outcome.succeeds := by
              rw [success]
              rfl
            exact .inl ⟨env, _, rfl, now.symm, succeeds⟩
        · exact .inl ⟨env, call, rfl, now.symm, success⟩
    · have silent : ownRequest uid table (.user who env call) = none := if_neg mine
      rw [silent] at seen
      have same : event.after.view uid = table.view uid := seen
      have unlocked : Unlocked (event.after.view uid) := unlocked
      rw [same] at unlocked ⊢
      refine ⟨.inr ⟨unlocked, ?_⟩, .inr ⟨unlocked, rfl⟩⟩
      rintro (⟨env, is⟩ | ⟨timeout, now, is, -⟩ | ⟨signal, is, -⟩)
      · exact mine (VaultRequest.user.inj is).1
      · cases is
      · cases is
  | idleTimeout shuttingDown timeout now =>
    have own : Prod.map VaultOutcome.swept id (lockOwn uid
        (fun unlockedAt => !shuttingDown && !decide (timeout ≤ 0) && idleFor timeout now unlockedAt) (table.view uid)) =
        (event.outcome.to uid, event.after.view uid) := seen
    refine swept own fun closes => ?_
    obtain ⟨env, is⟩ | ⟨_, _, is, long, idle⟩ | ⟨_, is, _⟩ := closes
    · cases is
    · cases is
      have on : ¬ timeout ≤ 0 := Int.not_le.mpr long
      have idle : idleFor timeout now (table.view uid).unlockedAt = true := idle
      simp [on, idle]
    · cases is
  | session shuttingDown signal =>
    have own : Prod.map VaultOutcome.swept id (lockOwn uid (fun _ => !shuttingDown && signal.locks) (table.view uid)) =
        (event.outcome.to uid, event.after.view uid) := seen
    refine swept own fun closes => ?_
    obtain ⟨env, is⟩ | ⟨_, _, is, -⟩ | ⟨_, is, locks⟩ := closes
    · cases is
    · cases is
    · cases is
      simp [locks]

/-- What is known of an unlocked vault. -/
structure Accounted (table : VaultTable) (past : List (Event VaultTable VaultRequest VaultOutcome)) : Prop where
  seated : table.Seated
  opened : ∀ uid, Unlocked (table.view uid) → Since (Opened uid) (Closes uid) past
  used : ∀ uid, Unlocked (table.view uid) → ∃ earlier ∈ past, Used uid (table.view uid).unlockedAt earlier

theorem Accounted.step {past : List (Event VaultTable VaultRequest VaultOutcome)} (accounted : Accounted table past)
    (request : VaultRequest) :
    Accounted ((vaults otpImportFromQr lib argon2id).event table request).after
    (past ++ [(vaults otpImportFromQr lib argon2id).event table request]) where
  seated := (step_seen otpImportFromQr lib argon2id accounted.seated 0 request).1
  opened uid unlocked := by
    rw [since_snoc]
    obtain opens | ⟨before, open_⟩ := (step_unlocked otpImportFromQr lib argon2id uid accounted.seated request unlocked).1
    · exact .inl opens
    · exact .inr ⟨accounted.opened uid before, open_⟩
  used uid unlocked := by
    obtain used | ⟨before, same⟩ := (step_unlocked otpImportFromQr lib argon2id uid accounted.seated request unlocked).2
    · exact ⟨_, List.mem_append_right _ (List.mem_singleton_self _), used⟩
    · obtain ⟨earlier, inside, used⟩ := accounted.used uid before
      exact ⟨earlier, List.mem_append_left _ inside, by rw [same]; exact used⟩

theorem run_accounted (stateDir : StatePath) (files : Bytes → Option Bytes) (requests : List VaultRequest) :
    Throughout ((vaults otpImportFromQr lib argon2id).run (.started stateDir files) requests) fun past event =>
      Accounted event.before past ∧ Accounted event.after (past ++ [event]) := by
  have locked (uid : Uid) : ¬ Unlocked ((VaultTable.started stateDir files).view uid) := by
    rintro ⟨handle, held, -⟩
    have none : (VaultTable.started stateDir files).find uid = none :=
      VaultTable.find_none.mpr (VaultTable.slotOf_none.mpr fun _ _ here => by cases here)
    rw [VaultTable.view_eq, none] at held
    cases held
  refine Machine.run_every (fun past table => Accounted table past) (fun past table request accounted => ?_)
    (fun past table request accounted => ?_)
    ⟨started_seated stateDir files, fun uid unlocked => absurd unlocked (locked uid),
      fun uid unlocked => absurd unlocked (locked uid)⟩ requests
  · exact accounted.step otpImportFromQr lib argon2id request
  · exact ⟨accounted, accounted.step otpImportFromQr lib argon2id request⟩

/-- A vault is unlocked only since its user was recognized and the TPM gave out its key, where
nothing has locked it since: no call of the user, no signal, and no timer that found it idle. -/
theorem unlocked_since_recognized (stateDir : StatePath) (files : Bytes → Option Bytes) (requests : List VaultRequest) :
    Throughout ((vaults otpImportFromQr lib argon2id).run (.started stateDir files) requests) fun past event =>
      ∀ uid, Unlocked (event.after.view uid) → Since (Opened uid) (Closes uid) (past ++ [event]) := by
  intro front event back shape uid unlocked
  exact (run_accounted otpImportFromQr lib argon2id stateDir files requests front event back shape).2.opened uid unlocked

/-- What the timer leaves unlocked did something for its user a short time ago. -/
theorem timer_leaves_used (stateDir : StatePath) (files : Bytes → Option Bytes) (requests : List VaultRequest) :
    Throughout ((vaults otpImportFromQr lib argon2id).run (.started stateDir files) requests) fun past event =>
      ∀ timeout now, event.input = .idleTimeout false timeout now → 0 < timeout → ∀ uid, Unlocked (event.after.view uid) →
        ∃ time, (∃ earlier ∈ past, Used uid time earlier) ∧ (now.toNat : Int) - time.toNat < timeout := by
  intro front event back shape timeout now timer long uid unlocked
  have accounted := (run_accounted otpImportFromQr lib argon2id stateDir files requests front event back shape).1
  have is : event = (vaults otpImportFromQr lib argon2id).event event.before event.input :=
    Machine.event_of_mem _ (shape ▸ List.mem_append_right _ List.mem_cons_self)
  have step := step_unlocked otpImportFromQr lib argon2id uid accounted.seated event.input (is ▸ unlocked)
  rw [← is] at step
  obtain ⟨env, around, user, -⟩ | ⟨before, fresh⟩ := step.1
  · rw [timer] at user
    cases user
  · refine ⟨_, accounted.used uid before, ?_⟩
    by_contra old
    refine fresh (.inr (.inl ⟨timeout, now, timer, long, ?_⟩))
    exact decide_eq_true (Int.not_lt.mp old)

end

end Hiya.Daemon.Vaults
