import Hiya.Proofs.CredentialStore
import Hiya.Proofs.PinCommands

/-! The retry counter of the PIN. Three commands compare a PIN hash, each with its own
guards in front and its own way to fail behind; the counter sees them all as the same
few moves. -/

namespace Hiya.Fido2
open Library
open Proc (Ends Keeps Moves)

structure PinLock where
  set : Bool
  retries : Int32
  blocked : Bool

def PinState.lock (pin : PinState) : PinLock where
  set := pin.pinSet
  retries := pin.pinRetries
  blocked := pin.pinBlocked

structure PinSound (lock : PinLock) : Prop where
  low : 0 ≤ lock.retries
  high : lock.retries ≤ maxPinRetries
  locked : lock.set = true → (lock.blocked = true ↔ lock.retries = 0)
  unset : lock.set = false → lock.blocked = false ∧ lock.retries = maxPinRetries

/-- One command, by the guess it makes and the lock it leaves. A right guess counts only
once nothing behind it fails. -/
inductive LockStep (lock : PinLock) : Option Bool → PinLock → Prop
  | kept {tried : Option Bool} (spared : tried ≠ some false) : LockStep lock tried lock
  | charged (set : lock.set = true) (free : lock.blocked = false) :
      LockStep lock (some false)
        { lock with retries := lock.retries - 1, blocked := decide (lock.retries - 1 ≤ 0) }
  | opened (set : lock.set = true) (free : lock.blocked = false) :
      LockStep lock (some true) { lock with retries := maxPinRetries }
  | placed (unset : lock.set = false) (set : Bool) : LockStep lock none { lock with set, retries := maxPinRetries }

theorem maxPinRetries_nonneg : 0 ≤ maxPinRetries := by decide

theorem sub_one_toInt {count : Int32} (low : 1 ≤ count) (high : count ≤ maxPinRetries) :
    (count - 1).toInt = count.toInt - 1 := by
  rw [Int32.le_iff_toInt_le] at low high
  rw [Int32.toInt_sub]
  simp only [maxPinRetries, Int32.reduceToInt] at low high ⊢
  rw [Int.bmod_eq_of_le]
  · omega
  · omega

namespace PinSound
variable {lock : PinLock}

/-- A lock that still takes guesses has a retry left. -/
theorem one_le (sound : PinSound lock) (set : lock.set = true) (free : lock.blocked = false) : 1 ≤ lock.retries := by
  have low := sound.low
  have some? : lock.retries ≠ 0 := by
    intro none
    rw [(sound.locked set).mpr none] at free
    cases free
  rw [Int32.le_iff_toInt_le] at low ⊢
  have different : lock.retries.toInt ≠ (0 : Int32).toInt := fun same => some? (Int32.toInt_inj.mp same)
  simp only [Int32.reduceToInt] at low different ⊢
  omega

theorem charged_toInt (sound : PinSound lock) (set : lock.set = true) (free : lock.blocked = false) :
    (lock.retries - 1).toInt = lock.retries.toInt - 1 :=
  sub_one_toInt (sound.one_le set free) sound.high

theorem charged (sound : PinSound lock) (set : lock.set = true) (free : lock.blocked = false) :
    PinSound { lock with retries := lock.retries - 1, blocked := decide (lock.retries - 1 ≤ 0) } := by
  have one := sound.one_le set free
  have exact := sound.charged_toInt set free
  have high := sound.high
  rw [Int32.le_iff_toInt_le] at one high
  have low : 0 ≤ lock.retries - 1 := by
    rw [Int32.le_iff_toInt_le, exact]
    simp only [Int32.reduceToInt] at one ⊢
    omega
  have bounded : lock.retries - 1 ≤ maxPinRetries := by
    rw [Int32.le_iff_toInt_le, exact]
    omega
  refine ⟨low, bounded, fun _ => ?_, fun unset => ?_⟩
  · simp only [decide_eq_true_eq]
    constructor
    · exact fun out => Int32.le_antisymm out low
    · exact fun none => Int32.le_of_eq none
  · rw [show lock.set = false from unset] at set
    cases set

theorem opened (set : lock.set = true) (free : lock.blocked = false) :
    PinSound { lock with retries := maxPinRetries } := by
  refine ⟨maxPinRetries_nonneg, Int32.le_refl _, fun _ => ?_, fun unset => ?_⟩
  · simp only [free]
    decide
  · rw [show lock.set = false from unset] at set
    cases set

theorem placed (sound : PinSound lock) (unset : lock.set = false) (set : Bool) :
    PinSound { lock with set, retries := maxPinRetries } := by
  obtain ⟨free, -⟩ := sound.unset unset
  refine ⟨maxPinRetries_nonneg, Int32.le_refl _, fun _ => ?_, fun _ => ⟨free, rfl⟩⟩
  simp only [free]
  decide

end PinSound

theorem LockStep.sound {lock after : PinLock} {tried : Option Bool} (step : LockStep lock tried after)
    (sound : PinSound lock) :
    PinSound after := by
  cases step with
  | kept _ => exact sound
  | charged set free => exact sound.charged set free
  | opened set free => exact PinSound.opened set free
  | placed unset set => exact sound.placed unset set

section
variable (crypto : Crypto) (key : Buf 32)

def SavedSound (file : Bytes) : Prop :=
  ∃ (env : Env) (ctx saved : Ctx), ctx.wrapKey = some key ∧ PinSound ctx.pin.lock ∧
    saveCredentials crypto env ctx = (.ok (), saved) ∧ saved.disk = some file

structure PinKept (ctx : Ctx) : Prop where
  wrap : ctx.wrapKey = some key
  sound : PinSound ctx.pin.lock
  disk : ∀ file, ctx.disk = some file → SavedSound crypto key file

structure PinEnd (tried : Option Bool) (ctx reached : Ctx) : Prop where
  step : LockStep ctx.pin.lock tried reached.pin.lock
  kept : PinKept crypto key reached

end

def Ctx.lockView (ctx : Ctx) : Option (Buf 32) × PinLock × Option Bytes := (ctx.wrapKey, ctx.pin.lock, ctx.disk)

section
variable {crypto : Crypto} {key : Buf 32} {env : Env} {ctx reached : Ctx}

theorem PinKept.congr (kept : PinKept crypto key ctx) (same : reached.lockView = ctx.lockView) :
    PinKept crypto key reached := by
  obtain ⟨wrap, lock, disk⟩ : reached.wrapKey = ctx.wrapKey ∧ reached.pin.lock = ctx.pin.lock ∧ reached.disk = ctx.disk := by
    simpa only [Ctx.lockView, Prod.mk.injEq] using same
  refine ⟨wrap.trans kept.wrap, lock ▸ kept.sound, fun file held => kept.disk file (disk ▸ held)⟩

theorem PinKept.save (env : Env) (kept : PinKept crypto key ctx) :
    PinKept crypto key (saveCredentials crypto env ctx).2 := by
  rcases saveCredentials_failed ctx with done | same
  · refine ⟨by rw [eq_save]; exact kept.wrap, by rw [eq_save]; exact kept.sound, fun file held => ?_⟩
    exact ⟨env, ctx, _, kept.wrap, kept.sound, Prod.ext done rfl, held⟩
  · rwa [same]

theorem lock_save (crypto : Crypto) (env : Env) (ctx : Ctx) :
    (saveCredentials crypto env ctx).2.pin.lock = ctx.pin.lock := by rw [eq_save]

/-- Another PIN state in an otherwise unchanged context. -/
theorem PinKept.update (kept : PinKept crypto key ctx) {change : PinState → PinState}
    (sound : PinSound (change ctx.pin).lock) :
    PinKept crypto key (ctx.updatePin change) := ⟨kept.wrap, sound, kept.disk⟩

variable {tried : Option Bool}

theorem PinEnd.unchanged (kept : PinKept crypto key ctx) (spared : tried ≠ some false) : PinEnd crypto key tried ctx ctx :=
  ⟨.kept spared, kept⟩

/-- A request that is turned down before its hash is looked at. -/
theorem PinEnd.silent (kept : PinKept crypto key ctx) (none : tried = none) : PinEnd crypto key tried ctx ctx :=
  .unchanged kept (by rw [none]; simp)

/-- A part that leaves the lock alone may follow. -/
theorem PinEnd.then {α : Type} {body : Command α} (ended : PinEnd crypto key tried ctx reached)
    (keeps : Keeps Ctx.lockView body) :
    Ends body reached fun _ last => PinEnd crypto key tried ctx last := by
  have same := keeps reached
  have lock : (body reached).2.pin.lock = reached.pin.lock := congrArg (fun view => view.2.1) same
  exact ⟨lock ▸ ended.step, ended.kept.congr same⟩

theorem lock_charge (pin : PinState) :
    (chargeRetry pin).lock =
      { pin.lock with retries := pin.pinRetries - 1, blocked := pin.pinBlocked || decide (pin.pinRetries - 1 ≤ 0) } := by
  unfold chargeRetry
  dsimp only
  split
  next out => simp [PinState.lock, out]
  next left => simp [PinState.lock, left]

/-- A wrong hash is charged, whether the file takes the new count or not. -/
theorem PinEnd.charged (env : Env) (kept : PinKept crypto key ctx) (set : ctx.pin.pinSet = true)
    (free : ctx.pin.pinBlocked = false) :
    PinEnd crypto key (some false) ctx (saveCredentials crypto env (ctx.updatePin chargeRetry)).2 := by
  have charge : (chargeRetry ctx.pin).lock =
      { ctx.pin.lock with retries := ctx.pin.lock.retries - 1, blocked := decide (ctx.pin.lock.retries - 1 ≤ 0) } := by
    rw [lock_charge, free, Bool.false_or]
    rfl
  have charged : PinKept crypto key (ctx.updatePin chargeRetry) := kept.update (charge ▸ kept.sound.charged set free)
  refine ⟨?_, charged.save env⟩
  rw [lock_save]
  change LockStep _ _ (chargeRetry ctx.pin).lock
  rw [charge]
  exact .charged set free

/-! What follows a right hash or no hash at all. -/

theorem regenerateKeyAgreement_lock : Keeps Ctx.lockView (regenerateKeyAgreement env) := by
  unfold regenerateKeyAgreement
  split
  · exact .bind (.modify fun _ => rfl) fun _ => .fail _
  · exact .modify fun _ => rfl

theorem issueToken_lock (permissions : UInt32) (rpId : Blob 255) : Keeps Ctx.lockView (issueToken env permissions rpId) := by
  unfold issueToken
  split
  · exact .bind (.modify fun _ => rfl) fun _ => .fail _
  · exact .bind (.modify fun _ => rfl) fun _ => .pure _

theorem sendToken_lock (keys : PinKeys) (permissions : UInt32) (rpId : Blob 255) (capacity : Nat) :
    Keeps Ctx.lockView (sendToken crypto env keys permissions rpId capacity) := by
  refine .bind (issueToken_lock _ _) fun token => .bind (keeps_need _ _) fun sealed => ?_
  exact .bind regenerateKeyAgreement_lock fun _ => .bind (keeps_need _ _) fun bytes => .pure _

theorem getUvTokenPerm_lock (params : ClientPinParams) (capacity : Nat) :
    Keeps Ctx.lockView (getUvTokenPerm crypto env params capacity) := by
  refine .bind .get fun ctx => keeps_checked <| .bind (keeps_need _ _) fun permissions => ?_
  refine keeps_checked <| keeps_checked ?_
  exact .bind (deriveClientPinKeys_keeps params) fun keys => sendToken_lock _ _ _ _

theorem setMinPinLength_lock (params : ClientPinParams) : Keeps Ctx.lockView (setMinPinLength crypto params) := by
  refine .bind .get fun ctx => keeps_checked <| .bind (keeps_need _ _) fun length => ?_
  refine keeps_checked <| .bind (keeps_need _ _) fun param => keeps_checked ?_
  exact keeps_checked <| keeps_checked <| .bind (.modify fun _ => rfl) fun _ => .pure _

/-- Install a PIN and write it out; one that cannot be saved is taken back. -/
theorem ends_install {install takeBack : PinState → PinState} (kept : PinKept crypto key ctx)
    (installed : LockStep ctx.pin.lock tried (install ctx.pin).lock)
    (undone : LockStep ctx.pin.lock tried (takeBack (install ctx.pin)).lock) :
    Ends (installPin crypto env install takeBack) ctx fun _ reached => PinEnd crypto key tried ctx reached := by
  apply Ends.andThen
  have stored := (kept.update (installed.sound kept.sound)).save env
  have pin : (saveCredentials crypto env (ctx.updatePin install)).2.pin = install ctx.pin := by
    rw [eq_save]
    rfl
  apply ends_trySave
  · intro _
    exact PinEnd.then ⟨pin ▸ installed, stored⟩ (.bind regenerateKeyAgreement_lock fun _ => .pure _)
  · intro _
    apply Ends.andThen
    have lock : ((saveCredentials crypto env (ctx.updatePin install)).2.updatePin takeBack).pin.lock =
        (takeBack (install ctx.pin)).lock := congrArg (fun pin => (takeBack pin).lock) pin
    have back := (stored.update (lock ▸ undone.sound kept.sound) : PinKept crypto key (Ctx.updatePin takeBack _))
    exact PinEnd.then ⟨lock ▸ undone, back⟩ (.fail _)

theorem setPin_lock {params : ClientPinParams} (kept : PinKept crypto key ctx) :
    Ends (setPin crypto env params) ctx fun _ reached => PinEnd crypto key none ctx reached := by
  apply setPin_cases
  · exact fun _ _ => .silent kept rfl
  · intro unset install _ shape
    obtain ⟨hash, installed⟩ := shape ctx.pin
    apply ends_install kept
    · rw [installed]
      exact .placed unset true
    · rw [installed]
      exact .placed unset false

/-- The checks that the three commands with a PIN have in front. -/
theorem ends_front {β : Type} {params : ClientPinParams} {next : Command β} (kept : PinKept crypto key ctx)
    (rest : ctx.pin.pinSet → ¬ ctx.pin.pinBlocked → params.hasKeyAgreement →
      Ends next ctx fun _ reached => PinEnd crypto key (hashVerdict crypto params ctx) ctx reached) :
    Ends (Command.check ctx.pin.pinSet .pinNotSet >>= fun _ => Command.check (¬ ctx.pin.pinBlocked) .pinBlocked >>= fun _ =>
        Command.check params.hasKeyAgreement .missingParameter >>= fun _ => next) ctx
      fun _ reached => PinEnd crypto key (hashVerdict crypto params ctx) ctx reached := by
  have absent (missing : ¬ PresentsHash params ctx.pin) : PinEnd crypto key (hashVerdict crypto params ctx) ctx ctx :=
    .silent kept (hashVerdict_absent missing)
  refine ends_guard (fun no => absent fun presents => no presents.2.1) fun set => ?_
  refine ends_guard (fun no => absent fun presents => no presents.2.2.1) fun open? => ?_
  refine ends_guard (fun no => absent fun presents => no presents.2.2.2.1) fun agreement => ?_
  exact rest set open? agreement

theorem changePin_lock {params : ClientPinParams} (changes : params.subCommand.toNat = 0x04) (kept : PinKept crypto key ctx) :
    Ends (changePin crypto env params) ctx
      fun _ reached => PinEnd crypto key (hashVerdict crypto params ctx) ctx reached := by
  have free {right : Bool} (verdict : hashVerdict crypto params ctx = some right) : ctx.pin.pinBlocked = false := by
    simpa using (hashVerdict_presents verdict).2.2.1
  apply changePin_cases changes
  · exact fun spared _ _ => .unchanged kept spared
  · intro wrong _
    rw [wrong]
    exact .charged env kept (hashVerdict_presents wrong).2.1 (free wrong)
  · intro right install _ shape
    obtain ⟨hash, installed⟩ := shape ctx.pin
    rw [right]
    apply ends_install kept
    · have lock : (install ctx.pin).lock = { ctx.pin.lock with retries := maxPinRetries } := by
        rw [installed]
        change ({ set := _, retries := _, blocked := false } : PinLock) =
          { set := _, retries := _, blocked := ctx.pin.pinBlocked }
        rw [free right]
        rfl
      rw [lock]
      exact .opened (hashVerdict_presents right).2.1 (free right)
    · rw [installed]
      exact .kept (by simp)

/-- The comparison in front of both token commands, with the counter refilled behind it. -/
theorem ends_verifyPinForToken {β : Type} {params : ClientPinParams} {change : PinState → PinState} {rest : PinKeys →
    Command β}
    (presents : PresentsHash params ctx.pin) (issues : params.subCommand.toNat ≠ 0x04) (kept : PinKept crypto key ctx)
    (refills : (change ctx.pin).lock = { ctx.pin.lock with retries := maxPinRetries })
    (quiet : ∀ keys, Keeps Ctx.lockView (rest keys)) :
    Ends (verifyPinForToken crypto env params >>= fun keys =>
        Proc.modify (Ctx.updatePin change) >>= fun _ => rest keys) ctx
      fun _ reached => PinEnd crypto key (hashVerdict crypto params ctx) ctx reached := by
  unfold verifyPinForToken
  simp only [bind_assoc, pure_bind]
  refine ends_deriveKeys (fun problem failed => .silent kept (hashVerdict_keyless failed)) fun keys derived => ?_
  have shape : HashArrives crypto params keys ↔ params.pinHashEnc.bytes.length ∈ [16, 32, 48, 64] := by
    rw [HashArrives, if_neg issues]
  refine ends_guard (fun no => .silent kept (hashVerdict_stopped derived fun arrives => no (shape.mp arrives))) fun fits => ?_
  have free : ctx.pin.pinBlocked = false := by simpa using presents.2.2.1
  apply ends_compareHash presents derived (shape.mpr fits)
  · exact fun none _ => .silent kept none
  · intro wrong _
    rw [wrong]
    exact .charged env kept presents.2.1 free
  intro right
  rw [right]
  apply Ends.andThen
  have step : LockStep ctx.pin.lock (some true) { ctx.pin.lock with retries := maxPinRetries } := .opened presents.2.1 free
  have opened : PinSound { ctx.pin.lock with retries := maxPinRetries } := PinSound.opened presents.2.1 free
  exact PinEnd.then ⟨refills ▸ step, kept.update (refills ▸ opened)⟩ (quiet keys)

theorem getPinToken_lock {params : ClientPinParams} {capacity : Nat} (issues : params.subCommand.toNat = 0x05)
    (kept : PinKept crypto key ctx) :
    Ends (getPinToken crypto env params capacity) ctx
      fun _ reached => PinEnd crypto key (hashVerdict crypto params ctx) ctx reached := by
  have absent (missing : ¬ PresentsHash params ctx.pin) : PinEnd crypto key (hashVerdict crypto params ctx) ctx ctx :=
    .silent kept (hashVerdict_absent missing)
  apply Ends.get
  refine ends_front kept fun set open? agreement => ?_
  refine ends_guard (fun no => absent fun presents => no presents.2.2.2.2.1) fun hashed => ?_
  have presents : PresentsHash params ctx.pin :=
    ⟨by rw [issues]; decide, set, open?, agreement, hashed, fun four => absurd (issues.symm.trans four) (by decide),
      fun nine => absurd (issues.symm.trans nine) (by decide)⟩
  apply ends_verifyPinForToken presents (by rw [issues]; decide) kept rfl
  intro keys
  refine .bind (issueToken_lock _ _) fun token => .bind (keeps_need _ _) fun sealed => ?_
  exact .bind (keeps_need _ _) fun bytes => .bind regenerateKeyAgreement_lock fun _ => .pure _

theorem getPinTokenPerm_lock {params : ClientPinParams} {capacity : Nat} (issues : params.subCommand.toNat = 0x09)
    (kept : PinKept crypto key ctx) :
    Ends (getPinTokenPerm crypto env params capacity) ctx
      fun _ reached => PinEnd crypto key (hashVerdict crypto params ctx) ctx reached := by
  have absent (missing : ¬ PresentsHash params ctx.pin) : PinEnd crypto key (hashVerdict crypto params ctx) ctx ctx :=
    .silent kept (hashVerdict_absent missing)
  apply Ends.get
  refine ends_front kept fun set open? agreement => ?_
  refine ends_value (fun none => absent fun presents => ?_) fun permissions given => ?_
  · have some? := (presents.2.2.2.2.2.2 issues).1
    rw [none] at some?
    cases some?
  refine ends_guard (fun no => absent fun presents => (presents.2.2.2.2.2.2 issues).2 ?_) fun restricted => ?_
  · rw [given, not_not.mp no]
  refine ends_guard (fun no => absent fun presents => no presents.2.2.2.2.1) fun hashed => ?_
  have presents : PresentsHash params ctx.pin :=
    ⟨by rw [issues]; decide, set, open?, agreement, hashed, fun four => absurd (issues.symm.trans four) (by decide),
      fun _ => ⟨by rw [given]; rfl, fun zero => restricted (Option.some.inj (given.symm.trans zero))⟩⟩
  have free : ctx.pin.pinBlocked = false := by simpa using open?
  apply ends_verifyPinForToken presents (by rw [issues]; decide) kept
  · change ({ set := _, retries := _, blocked := false } : PinLock) =
      { set := _, retries := _, blocked := ctx.pin.pinBlocked }
    rw [free]
    rfl
  · exact fun keys => sendToken_lock _ _ _ _

theorem clientPin_lock {request : Request} (command : request.command = .clientPin) (kept : PinKept crypto key ctx) :
    Ends (clientPin crypto request.env request.body request.capacity) ctx
      fun _ reached => PinEnd crypto key (guess crypto request ctx) ctx reached := by
  unfold guess clientPin
  rw [if_neg (not_not.mpr command)]
  cases parseClientPinParams request.body with
  | error problem => exact .unchanged kept (by simp)
  | ok params =>
    refine ends_guard (fun other => .unchanged kept ?_) fun protocol => ?_
    · simp [other]
    simp only [if_pos protocol]
    apply Ends.get
    have quiet {body : Command Reply} (keeps : Keeps Ctx.lockView body)
      (other : params.subCommand.toNat ∉ [0x04, 0x05, 0x09]) :
        Ends body ctx fun _ reached => PinEnd crypto key (hashVerdict crypto params ctx) ctx reached := by
      rw [hashVerdict_other other]
      exact (PinEnd.unchanged kept (by simp)).then keeps
    split
    next which => exact quiet (keeps_sendItems _ _) (by rw [which]; decide)
    next which => exact quiet (keeps_sendItems _ _) (by rw [which]; decide)
    next which =>
      rw [hashVerdict_other (by rw [which]; decide)]
      exact setPin_lock kept
    next which => exact changePin_lock which kept
    next which => exact getPinToken_lock which kept
    next which => exact quiet (getUvTokenPerm_lock _ _) (by rw [which]; decide)
    next which => exact quiet (keeps_sendItems _ _) (by rw [which]; decide)
    next which => exact quiet (setMinPinLength_lock _) (by rw [which]; decide)
    next which => exact getPinTokenPerm_lock which kept
    next _ _ _ four five _ _ _ nine =>
      apply quiet (.fail _)
      simp only [List.mem_cons, List.not_mem_nil, or_false, not_or]
      exact ⟨four, five, nine⟩

section
variable {rel : Ctx → Ctx → Prop} [IsPreorder Ctx rel]
  (same : ∀ ctx reached, reached.wrapKey = ctx.wrapKey → reached.pin = ctx.pin → reached.disk = ctx.disk → rel ctx reached)
  (saves : ∀ env, Moves rel (saveCredentials crypto env))

/-! Outside clientPIN and a reset, what these commands do to the wrap key, the PIN and the
file is to save. -/

omit [IsPreorder Ctx rel] in
include same in
theorem moves_putCounter (holder : Option CredSlot) (count : UInt32) (ctx : Ctx) : rel ctx (ctx.putCounter holder count) := by
  cases holder with
  | none => exact same _ _ rfl rfl rfl
  | some slot => exact same _ _ rfl rfl rfl

include same saves

theorem moves_storeResident (cred : Credential) : Moves rel (storeResident crypto env cred) := by
  refine .bind .get fun ctx => .bind (moves_need _ _) fun slot => .bind (.modify fun _ => same _ _ rfl rfl rfl) fun _ => ?_
  refine .bind (.withDefault (.bind (saves env) fun _ => .pure _)) fun saved => .ite (.pure _) ?_
  exact .bind (.modify fun _ => same _ _ rfl rfl rfl) fun _ => .fail _

theorem moves_makeCredential (body : Bytes) (capacity : Nat) : Moves rel (makeCredential crypto env body capacity) := by
  refine .bind (moves_ofExcept _) fun parsed => .bind .get fun ctx => .ite (.fail _) ?_
  refine .bind (moves_performUv _ _) fun uv => .bind (moves_need _ _) fun drawn => .bind ?_ fun secret => ?_
  · exact .ite (.bind (moves_need _ _) fun _ => .pure _) (.pure _)
  · refine .bind .get fun ctx => .bind (.modify fun _ => same _ _ rfl rfl rfl) fun _ => .bind (moves_need _ _)
      fun authData => ?_
    refine .bind (moves_need _ _) fun signature => .ite (.bind (moves_storeResident same saves _) fun _ => ?_) ?_
    · exact .bind (moves_need _ _) fun der => .bind (moves_need _ _) fun bytes => .pure _
    · exact .bind (moves_need _ _) fun der => .bind (moves_need _ _) fun bytes => .pure _

omit [IsPreorder Ctx rel] saves in
theorem moves_bioEnrollment (body : Bytes) (capacity : Nat) : Moves rel (bioEnrollment crypto env body capacity) := by
  intro ctx
  rw [eq_of_besideBio (bioEnrollment_beside body capacity ctx)]
  exact same _ _ rfl rfl rfl

omit [IsPreorder Ctx rel] saves in
theorem moves_of_besideEnum {body : Command Reply} (keeps : Keeps Ctx.besideEnum body) : Moves rel body := by
  intro ctx
  rw [eq_of_besideEnum (keeps ctx)]
  exact same _ _ rfl rfl rfl

theorem moves_credMgmtCommand (params : CredMgmtParams) (capacity : Nat) :
    Moves rel (credMgmtCommand crypto env params capacity) := by
  refine .bind .get fun ctx => ?_
  split
  · exact moves_sendItems _ _
  · exact moves_of_besideEnum same (enumerateRpsBegin_beside _)
  · exact moves_of_besideEnum same (enumerateRpsNext_beside _)
  · exact moves_of_besideEnum same (enumerateCredsBegin_beside _ _)
  · exact moves_of_besideEnum same (enumerateCredsNext_beside _)
  · refine .bind (moves_need _ _) fun id => .bind .get fun ctx => .bind (moves_need _ _) fun slot => ?_
    exact .bind (.modify fun _ => same _ _ rfl rfl rfl) fun _ => .bind (.ignore (saves env)) fun _ => .pure _
  · refine .bind (moves_need _ _) fun id => .bind .get fun ctx => .bind (moves_need _ _) fun slot => .bind
      (moves_check _ _) fun _ => ?_
    exact .bind (.modify fun _ => same _ _ rfl rfl rfl) fun _ => .bind (.ignore (saves env)) fun _ => .pure _
  · exact .fail _

theorem moves_credentialManagement (body : Bytes) (capacity : Nat) :
    Moves rel (credentialManagement crypto env body capacity) := by
  refine .bind (moves_ofExcept _) fun params => .ite (moves_credMgmtCommand same saves params capacity) ?_
  refine .bind (moves_authorize _ _ _ _ _) fun _ => .bind (.modify fun _ => same _ _ rfl rfl rfl) fun _ => ?_
  exact moves_credMgmtCommand same saves params capacity

/-- One rule for all of them; clientPIN and the reset are left to the caller. -/
theorem moves_process (request : Request) (pins : request.command ≠ .clientPin) (resets : request.command ≠ .reset) :
    Moves rel (process crypto request) := by
  have dispatched : Moves rel (dispatch crypto request) := by
    unfold dispatch
    cases command : Cmd.ofByte request.cmd with
    | makeCredential => exact moves_makeCredential same saves _ _
    | getAssertion => exact moves_getAssertion (moves_putCounter same) (fun _ _ _ _ _ _ _ => same _ _ rfl rfl rfl) saves _ _
    | getInfo => exact moves_getInfo _
    | clientPin => exact absurd command pins
    | reset => exact absurd command resets
    | getNextAssertion =>
      exact moves_getNextAssertion (moves_putCounter same) (fun _ _ _ _ _ _ _ => same _ _ rfl rfl rfl) saves _
    | bioEnrollment => exact moves_bioEnrollment same _ _
    | credentialManagement => exact moves_credentialManagement same saves _ _
    | selection => exact moves_selection
    | unknown => exact .fail _
  exact .ite (.bind (.modify fun _ => same _ _ rfl rfl rfl) fun _ => dispatched) dispatched

end

def Spared (crypto : Crypto) (key : Buf 32) (before after : Ctx) : Prop :=
  PinKept crypto key before → after.pin = before.pin ∧ PinKept crypto key after

instance : IsPreorder Ctx (Spared crypto key) where
  refl _ kept := ⟨rfl, kept⟩
  trans _ _ _ first second kept :=
    ⟨(second (first kept).2).1.trans (first kept).1, (second (first kept).2).2⟩

theorem spared_process (request : Request) (pins : request.command ≠ .clientPin) (resets : request.command ≠ .reset) :
    Moves (Spared crypto key) (process crypto request) := by
  have saves (env : Env) : Moves (Spared crypto key) (saveCredentials crypto env) :=
    fun ctx kept => ⟨by rw [eq_save], kept.save env⟩
  refine moves_process (fun ctx reached wrap pin disk kept => ?_) saves request pins resets
  exact ⟨pin, wrap.trans kept.wrap, pin ▸ kept.sound, fun file held => kept.disk file (disk ▸ held)⟩

/-- The lock of an authenticator without a PIN. -/
def PinLock.fresh : PinLock := { set := false, retries := maxPinRetries, blocked := false }

theorem PinSound.fresh : PinSound .fresh :=
  ⟨maxPinRetries_nonneg, Int32.le_refl _, fun set => (by cases set), fun _ => ⟨rfl, rfl⟩⟩

/-- Every command makes one move of the lock, or is a reset. -/
theorem process_lock (request : Request) (kept : PinKept crypto key ctx) :
    Ends (process crypto request) ctx fun outcome reached => PinKept crypto key reached ∧
      (LockStep ctx.pin.lock (guess crypto request ctx) reached.pin.lock ∨
        (request.command = .reset ∧ succeeds outcome = true ∧ guess crypto request ctx = none ∧
          reached.pin.lock = .fresh)) := by
  have moved {tried : Option Bool} {outcome : Except Status Reply} {reached : Ctx} (same : guess crypto request ctx = tried)
      (ended : PinEnd crypto key tried ctx reached) : PinKept crypto key reached ∧
        (LockStep ctx.pin.lock (guess crypto request ctx) reached.pin.lock ∨
          (request.command = .reset ∧ succeeds outcome = true ∧ guess crypto request ctx = none ∧
            reached.pin.lock = .fresh)) :=
    ⟨ended.kept, .inl (same ▸ ended.step)⟩
  have silent (other : request.command ≠ .clientPin) : guess crypto request ctx = none := if_pos other
  by_cases others : request.command ≠ .clientPin ∧ request.command ≠ .reset
  · obtain ⟨pin, after⟩ := spared_process request others.1 others.2 ctx kept
    refine moved (silent others.1) ⟨?_, after⟩
    rw [pin]
    exact .kept (by simp)
  have which : request.command = .clientPin ∨ request.command = .reset := by tauto
  rcases which with command | command
  · apply ends_process (by rw [command]; decide)
    unfold dispatch
    rw [show Cmd.ofByte request.cmd = .clientPin from command]
    refine (clientPin_lock command (kept.congr rfl :
      PinKept crypto key ctx.dropAssertion)).mono fun outcome reached ended => ?_
    exact moved rfl ⟨ended.step, ended.kept⟩
  · apply ends_process (by rw [command]; decide)
    unfold dispatch
    rw [show Cmd.ofByte request.cmd = .reset from command]
    have unchanged : PinEnd crypto key none ctx ctx.dropAssertion := ⟨.kept (by simp), kept.congr rfl⟩
    have quiet := silent (by rw [command]; decide)
    apply Ends.get
    refine ends_check (moved quiet unchanged) fun early => ends_check (moved quiet unchanged) fun present => ?_
    apply Ends.andThen
    have cleared : PinKept crypto key (ctx.dropAssertion.cleared request.env) := ⟨kept.wrap, .fresh, kept.disk⟩
    refine ⟨cleared.save request.env, .inr ⟨command, rfl, quiet, ?_⟩⟩
    exact lock_save crypto request.env _

end

/-- The authenticator after start-up: on an empty store, or on the file that an earlier
session left. -/
inductive Booted (crypto : Crypto) (key : Buf 32) : Ctx → Prop
  | first (env : Env) (keypair : Keypair) (verifyUser : Bool) :
      Booted crypto key ((fido2Init crypto env keypair key none).setUvCallback verifyUser)
  | again (env : Env) (keypair : Keypair) (verifyUser : Bool) {start : Ctx} (earlier : Booted crypto key start)
      {requests : List Request} {event : Exchange} (ran : event ∈ (authenticator crypto).run start requests) :
      Booted crypto key ((fido2Init crypto env keypair key event.after.disk).setUvCallback verifyUser)

section
variable {crypto : Crypto} {key : Buf 32}

/-- What a kept lock makes true of every request holds throughout a run. -/
theorem run_pin {good : Exchange → Prop} {start : Ctx} (kept : PinKept crypto key start)
    (makes : ∀ ctx request, PinKept crypto key ctx → good ((authenticator crypto).event ctx request))
    (requests : List Request) :
    Throughout ((authenticator crypto).run start requests) fun _ event => good event := by
  refine Machine.run_every (fun _ ctx => PinKept crypto key ctx) ?_ ?_ kept requests
  · exact fun past ctx request kept => (process_lock request kept).1
  · exact fun past ctx request kept => makes ctx request kept

theorem Booted.kept (opens : crypto.OpensSealed) {ctx : Ctx} (booted : Booted crypto key ctx) : PinKept crypto key ctx := by
  induction booted with
  | first env keypair verifyUser => exact ⟨rfl, .fresh, fun file held => by cases held⟩
  | @again env keypair verifyUser start earlier requests event ran ih =>
    have all : Throughout ((authenticator crypto).run start requests) fun _ event => PinKept crypto key event.after :=
      run_pin ih (fun ctx request kept => (process_lock request kept).1) requests
    have left := all.of_mem ran
    cases held : event.after.disk with
    | none => exact ⟨rfl, .fresh, fun file held => by cases held⟩
    | some file =>
      obtain ⟨saveEnv, ctx, saved, wrap, sound, done, disk⟩ := left.disk file held
      obtain ⟨wrap?, pin?, disk?⟩ := fido2Init_restart opens wrap done disk env keypair
      refine ⟨wrap?, ?_, fun stored there => ?_⟩
      · change PinSound (fido2Init crypto env keypair key (some file)).pin.lock
        rw [pin?]
        exact sound
      · cases disk?.symm.trans there
        exact left.disk file held

/-- The retries of a PIN, as the protocol has them. -/
structure PinBounds (pin : PinState) : Prop where
  low : 0 ≤ pin.pinRetries
  high : pin.pinRetries ≤ maxPinRetries
  blocked : pin.pinSet = true → (pin.pinBlocked = true ↔ pin.pinRetries = 0)

/-- What one request may do to the retries. -/
structure PinGuarded (crypto : Crypto) (event : Exchange) : Prop where
  before : PinBounds event.before.pin
  after : PinBounds event.after.pin
  charged : guess crypto event.input event.before = some false →
    event.after.pin.pinRetries.toInt = event.before.pin.pinRetries.toInt - 1
  unblocked : event.before.pin.pinBlocked = true → event.after.pin.pinBlocked = false → Resets event

theorem PinSound.bounds {pin : PinState} (sound : PinSound pin.lock) : PinBounds pin :=
  ⟨sound.low, sound.high, sound.locked⟩

theorem LockStep.charged_exactly {lock after : PinLock} (step : LockStep lock (some false) after) (sound : PinSound lock) :
    after.retries.toInt = lock.retries.toInt - 1 := by
  cases step with
  | kept spared => exact absurd rfl spared
  | charged set free => exact sound.charged_toInt set free

theorem LockStep.retries_le {lock after : PinLock} {tried : Option Bool} (step : LockStep lock tried after)
    (sound : PinSound lock)
    (wrong : tried ≠ some true) : after.retries.toInt ≤ lock.retries.toInt := by
  cases step with
  | kept _ => exact Int.le_refl _
  | charged set free =>
    rw [sound.charged_toInt set free]
    omega
  | opened set free => exact absurd rfl wrong
  | placed unset set =>
    have full := (sound.unset unset).2
    exact Int.le_of_eq (by rw [full])

theorem LockStep.stays_blocked {lock after : PinLock} {tried : Option Bool} (step : LockStep lock tried after)
    (blocked : lock.blocked = true) : after.blocked = true := by
  cases step with
  | kept _ => exact blocked
  | charged set free => rw [blocked] at free; cases free
  | opened set free => exact blocked
  | placed unset set => exact blocked

theorem guarded_step {ctx : Ctx} (kept : PinKept crypto key ctx) (request : Request) :
    PinGuarded crypto ((authenticator crypto).event ctx request) := by
  obtain ⟨left, moved⟩ := process_lock request kept
  refine ⟨kept.sound.bounds, left.sound.bounds, fun wrong => ?_, fun blocked free => ?_⟩
  · have failed : guess crypto request ctx = some false := wrong
    rcases moved with step | ⟨-, -, none, -⟩
    · rw [failed] at step
      exact step.charged_exactly kept.sound
    · rw [failed] at none
      cases none
  · rcases moved with step | ⟨resets, done, -, -⟩
    · have still := step.stays_blocked blocked
      rw [show ((process crypto request ctx).2.pin.lock).blocked = false from free] at still
      cases still
    · exact ⟨resets, done⟩

def PinState.retriesLeft (pin : PinState) : Nat := pin.pinRetries.toInt.toNat

theorem PinSound.left_le {pin : PinState} (sound : PinSound pin.lock) : pin.retriesLeft ≤ 8 := by
  have high := Int32.le_iff_toInt_le.mp sound.high
  simp only [maxPinRetries, Int32.reduceToInt] at high
  change pin.pinRetries.toInt ≤ 8 at high
  unfold PinState.retriesLeft
  omega

theorem spending_step {ctx : Ctx} (kept : PinKept crypto key ctx) (request : Request) :
    Spending (fun ctx : Ctx => ctx.pin.retriesLeft) (fun event => guess crypto event.input event.before = some false)
      (fun event => guess crypto event.input event.before = some true ∨ Resets event)
      ((authenticator crypto).event ctx request) := by
  have guarded := guarded_step kept request
  have low := Int32.le_iff_toInt_le.mp guarded.after.low
  simp only [Int32.reduceToInt] at low
  refine ⟨fun wrong => ?_, fun dry => ?_⟩
  · have exact := guarded.charged wrong
    unfold PinState.retriesLeft
    omega
  · obtain ⟨-, moved⟩ := process_lock request kept
    rcases moved with step | ⟨resets, done, -, -⟩
    · have lower := step.retries_le kept.sound fun right => dry (.inl right)
      exact Int.toNat_le_toNat lower
    · exact absurd (.inr ⟨resets, done⟩) dry

/-- From any start-up on, the retries stay between 0 and 8, the PIN is blocked exactly
when none is left, every wrong hash costs one, and only a reset unblocks; so no more
than eight wrong hashes are looked at without a right one or a reset in between. -/
theorem pin_guesses_are_limited (crypto : Crypto) (opens : crypto.OpensSealed) (key : Buf 32) (start : Ctx)
    (booted : Booted crypto key start) (requests : List Request) :
    PinBounds start.pin ∧
    Throughout ((authenticator crypto).run start requests) (fun _ event => PinGuarded crypto event) ∧
    ∀ front stretch back, (authenticator crypto).run start requests = front ++ stretch ++ back →
      (∀ event ∈ stretch, guess crypto event.input event.before ≠ some true ∧ ¬ Resets event) →
      stretch.countP (fun event => guess crypto event.input event.before = some false) ≤ 8 := by
  have kept := booted.kept opens
  refine ⟨kept.sound.bounds, run_pin kept (fun ctx request kept => guarded_step kept request) requests,
    fun front stretch back shape dry => ?_⟩
  have spending : Throughout ((authenticator crypto).run start requests) fun _ event =>
      event.before.pin.retriesLeft ≤ 8 ∧
        Spending (fun ctx : Ctx => ctx.pin.retriesLeft) (fun event => guess crypto event.input event.before = some false)
          (fun event => guess crypto event.input event.before = some true ∨ Resets event) event :=
    run_pin kept (fun ctx request kept => ⟨kept.sound.left_le, spending_step kept request⟩) requests
  refine Machine.spent_le_limit (fun ctx : Ctx => ctx.pin.retriesLeft) spending shape fun event inside => ?_
  obtain ⟨wrong, lasting⟩ := dry event inside
  rintro (right | resets)
  · exact wrong right
  · exact lasting resets

end

/-- Nine tokens are asked for with a wrong PIN after one was set. -/
def guessing : List Request := setPinRequest :: List.replicate 9 (pinTokenRequest "4321")

theorem pin_guesses_are_limited_guessing :
    ((authenticator tagCipher).run (plainCtx false) guessing).countP
        (fun event => guess tagCipher event.input event.before = some false) = 8 ∧
      ((authenticator tagCipher).run (plainCtx false) guessing).countP
        (fun event => guess tagCipher event.input event.before = some false) ≤ 8 := by
  refine ⟨by decide +kernel, ?_⟩
  obtain ⟨-, -, limited⟩ := pin_guesses_are_limited tagCipher tagCipher_opens (.zero 32) (plainCtx false)
    (.first (plainEnv 0) plainKeypair false) guessing
  apply limited [] _ [] (by simp)
  have checked : ((authenticator tagCipher).run (plainCtx false) guessing).all (fun event =>
      guess tagCipher event.input event.before ≠ some true && event.input.command ≠ .reset) = true := by decide +kernel
  intro event inside
  have fine := List.all_eq_true.mp checked event inside
  rw [Bool.and_eq_true, decide_eq_true_eq, decide_eq_true_eq] at fine
  exact ⟨fine.1, fun resets => fine.2 resets.1⟩

end Hiya.Fido2
