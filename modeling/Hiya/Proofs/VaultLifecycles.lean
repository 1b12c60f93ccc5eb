import Hiya.Pm.VaultLifecycle
import Hiya.Proofs.SharedVaults

/-! What the calls on a handle keep. A locked handle holds neither key nor payload, an
unlocked one holds its key; a locked handle refuses; and a call that fails has changed
neither the handle nor the file. -/

namespace Hiya.Pm.Lifecycle
open Library Format Store

private theorem writeRest_some {answers : List WriteAnswer} {written rest result : Bytes}
    (done : writeRest answers written rest = some result) : result = written ++ rest := by
  fun_induction writeRest answers written rest with
  | case1 answers written =>
    cases done
    rw [List.append_nil]
  | case2 written rest =>
    cases done
    rfl
  | case3 => cases done
  | case4 answers written rest _ ih => exact ih done
  | case5 count answers written rest _ ih =>
    rw [ih done, List.append_assoc, List.take_append_drop]

/-- A file that could not be written is still the old one. -/
structure Replaces (data : Bytes) (before : Files) (outcome : Except PmError Unit) (after : Files) : Prop where
  done : outcome = .ok () → after.vault = some data
  undone : outcome ≠ .ok () → after.vault = before.vault

private theorem dropTmp_replaces {data : Bytes} {before files : Files} (same : files.vault = before.vault) :
    dropTmp.Ends files (Replaces data before) := .andThen (.fail ⟨nofun, fun _ => same⟩)

theorem writeFileAtomic_replaces (disk : Disk) (data : Bytes) (files : Files) :
    (writeFileAtomic disk data).Ends files (Replaces data files) := by
  refine .ite (fun _ => .fail ⟨nofun, fun _ => rfl⟩) fun _ => .ite (fun _ => .fail ⟨nofun, fun _ => rfl⟩) fun _ =>
    .ite (fun _ => .fail ⟨nofun, fun _ => rfl⟩) fun _ => .andThen ?_
  cases wrote : writeRest disk.writes [] data with
  | none => exact dropTmp_replaces rfl
  | some written =>
    refine .andThen (.ite (fun _ => dropTmp_replaces rfl) fun _ => .ite (fun _ => dropTmp_replaces rfl) fun _ => .modify ?_)
    exact ⟨fun _ => congrArg some (writeRest_some wrote), fun wrong => absurd rfl wrong⟩

section
variable {γ : Type} {view : VaultHandle → γ} (memory : Memory)

private theorem keeps_getPayload (enough : Bool) : Proc.Keeps view (getPayloadModel enough) :=
  .bind .get fun _ => .ite (.fail _) (.ite (.fail _) (keeps_liftVault _))

private theorem keeps_entryGet (entryId : CStr) : Proc.Keeps view (entryGet memory entryId) := by
  refine .ite (.fail _) (.bind (keeps_getPayload _) fun payload => ?_)
  cases payload.entries.find? (·.id = entryId) with
  | some entry => exact keeps_liftVault _
  | none => exact .fail _

private theorem edits_setPayloadIn (payload : Bytes) : Edits (setPayload memory payload) := by
  have install (copy : Bytes) : Edits (Proc.modify fun handle => { handle with payload := copy } : Vault Unit) :=
    ⟨.modify fun _ => rfl, .modify _⟩
  exact .bind .get fun _ => .ite (.fail _) (.ite (.fail _)
    (.bind (keeps_liftVault _) fun _ => .bind (keeps_liftVault _) install))

private theorem edits_setPayloadModelIn (payload : Payload) : Edits (setPayloadModel memory payload) :=
  .bind .get fun _ => .ite (.fail _) (.bind (keeps_liftVault _) (edits_setPayloadIn memory))

private theorem edits_entryUpdateIn (entryId : CStr) (replacement : Entry) :
    Edits (entryUpdate memory entryId replacement) := by
  refine .ite (.fail _) (.bind (keeps_getPayload _) fun payload => .bind (keeps_liftVault _) fun rebuilt => ?_)
  exact .ite (.fail _) (edits_setPayloadModelIn memory _)

private theorem edits_entryRemoveIn (entryId : CStr) : Edits (entryRemove memory entryId) := by
  refine .ite (.fail _) (.bind (keeps_getPayload _) fun payload => .bind (keeps_liftVault _) fun rebuilt => ?_)
  exact .ite (.fail _) (edits_setPayloadModelIn memory _)

private theorem edits_entryAddIn (entry : Entry) (failIfExists : Bool) : Edits (entryAdd memory entry failIfExists) := by
  refine .ite (.fail _) (.bind (keeps_getPayload _) fun payload => .ite (.fail _) (.ite (edits_entryUpdateIn memory _ _) ?_))
  exact .bind (keeps_liftVault _) (edits_setPayloadModelIn memory)

private theorem edits_change (edit : Edit) : Edits (change memory edit) := by
  cases edit with
  | setPayload payload => exact edits_setPayloadIn memory payload
  | entryAdd entry failIfExists => exact edits_entryAddIn memory entry failIfExists
  | entryUpdate entryId replacement => exact edits_entryUpdateIn memory entryId replacement
  | entryRemove entryId => exact edits_entryRemoveIn memory entryId

end

/-- The arguments a call checks before it looks at the handle. -/
def Call.valid : Call → Bool
  | .edit (.setPayload payload) => !payload.isEmpty
  | .edit (.entryAdd entry _) => validEntryId entry.id
  | .edit (.entryUpdate entryId replacement) => validEntryId entryId && validEntryId replacement.id
  | .edit (.entryRemove entryId) => validEntryId entryId
  | .entryGet entryId => validEntryId entryId
  | _ => true

def Call.needsPayload : Call → Bool
  | .edit _ => true
  | .getPayloadModel => true
  | .entryGet _ => true
  | .save => true
  | _ => false

/-- The error of a call on a locked handle. -/
def Call.refusal (call : Call) : PmError := if call.valid then .locked else .invalidParam

section
variable {contents : VaultHandle} (locked : contents.locked = true)
include locked

private theorem getPayloadModel_locked (enough : Bool) : getPayloadModel enough contents = (.error .locked, contents) := by
  unfold getPayloadModel
  rw [Proc.bind_of_ok (Proc.get_apply contents), if_pos locked]
  rfl

private theorem guarded_locked {α : Type} (valid enough : Bool) (next : Payload → Vault α) :
    (if !valid then Proc.fail .invalidParam else getPayloadModel enough >>= next : Vault α) contents =
      (.error (if valid then .locked else .invalidParam), contents) := by
  cases valid with
  | false => rfl
  | true => exact Proc.bind_of_error (getPayloadModel_locked locked enough)

private theorem entryGet_locked (memory : Memory) (entryId : CStr) :
    entryGet memory entryId contents = (.error (Call.entryGet entryId).refusal, contents) :=
  guarded_locked locked (validEntryId entryId) memory.decode _

private theorem change_locked (memory : Memory) (edit : Edit) :
    change memory edit contents = (.error (Call.edit edit).refusal, contents) := by
  cases edit with
  | setPayload payload =>
    change setPayload memory payload contents = _
    unfold setPayload
    rw [Proc.bind_of_ok (Proc.get_apply contents)]
    cases payload with
    | nil => rfl
    | cons first rest =>
      rw [if_neg (List.cons_ne_nil first rest), if_pos locked]
      rfl
  | entryAdd entry failIfExists => exact guarded_locked locked (validEntryId entry.id) memory.lookup _
  | entryUpdate entryId replacement =>
    change entryUpdate memory entryId replacement contents = _
    unfold entryUpdate
    rw [← Bool.not_and]
    exact guarded_locked locked (validEntryId entryId && validEntryId replacement.id) memory.decode _
  | entryRemove entryId => exact guarded_locked locked (validEntryId entryId) memory.decode _

end

def Sealed (handle : Handle) : Prop :=
  handle.contents.locked = true ↔ handle.masterKey = none ∧ handle.contents.payload = []

/-- A locked handle is empty, an unlocked one has its key. -/
structure Whole (handle : Handle) : Prop where
  locked : handle.contents.locked = true → handle.masterKey = none ∧ handle.contents.payload = []
  unlocked : handle.contents.locked = false → handle.masterKey ≠ none

theorem Whole.sealed {handle : Handle} (whole : Whole handle) : Sealed handle := by
  refine ⟨whole.locked, fun empty => ?_⟩
  cases lock : handle.contents.locked with
  | true => rfl
  | false => exact absurd empty.1 (whole.unlocked lock)

theorem Whole.of_locked {handle : Handle} (lock : handle.contents.locked = true) (key : handle.masterKey = none)
    (payload : handle.contents.payload = []) : Whole handle := by
  refine ⟨fun _ => ⟨key, payload⟩, fun unlocked => ?_⟩
  rw [lock] at unlocked
  cases unlocked

def Call.makesHandle : Call → Bool
  | .create _ => true
  | .openVault => true
  | _ => false

/-- Nothing has changed, but that a call for a new handle may clear the caller's variable. -/
structure Undone (call : Call) (before after : World) : Prop where
  file : after.files.vault = before.files.vault
  handle : after.handle = before.handle ∨ (call.makesHandle = true ∧ after.handle = none)

theorem Undone.refl (call : Call) (world : World) : Undone call world world := ⟨rfl, .inl rfl⟩

/-- What one call does to the handle and the file. -/
structure Kept (call : Call) (before : World) (result : Outcome × World) : Prop where
  whole : (∀ handle, before.handle = some handle → Whole handle) → ∀ handle, result.2.handle = some handle → Whole handle
  refused : ∀ handle, before.handle = some handle → handle.contents.locked = true → call.needsPayload = true →
    result.1 = .error (.error call.refusal)
  undone : ∀ problem, result.1 = .error (.error problem) → Undone call before result.2

namespace Kept
variable {call : Call} {world : World}

theorem refuse (stop : Stop)
    (refused : ∀ handle, world.handle = some handle → handle.contents.locked = true → call.needsPayload = true →
      stop = .error call.refusal) : Kept call world (.error stop, world) :=
  ⟨id, fun handle there lock needs => congrArg _ (refused handle there lock needs), fun _ _ => .refl call world⟩

theorem clear (stop : Stop) (makes : call.makesHandle = true) (other : call.needsPayload = false) :
    Kept call world (.error stop, { world with handle := none }) := by
  refine ⟨fun _ handle there => (by cases there), fun _ _ _ needs => ?_, fun _ _ => ⟨rfl, .inr ⟨makes, rfl⟩⟩⟩
  rw [other] at needs
  cases needs

/-- A call that succeeds on its way past the payload. -/
theorem succeed {after : World} (other : call.needsPayload = false)
    (whole : (∀ handle, world.handle = some handle → Whole handle) → ∀ handle, after.handle = some handle → Whole handle) :
    Kept call world (.ok (), after) := by
  refine ⟨whole, fun _ _ _ needs => ?_, nofun⟩
  rw [other] at needs
  cases needs

end Kept

section
variable {argon2id : Argon2id} {lib : Primitives} {env : Env} {world : World}

private theorem onHandle_kept {call : Call} {use : Handle → Outcome × World}
    (kept : ∀ handle, world.handle = some handle → Kept call world (use handle)) :
    Kept call world (onHandle world use) := by
  unfold onHandle
  cases there : world.handle with
  | none =>
    refine .refuse _ fun handle here => ?_
    rw [there] at here
    cases here
  | some handle => exact kept handle there

private theorem vaultCreate_locked {opts : CreateOpts} {handle : Handle} {blob : Bytes}
    (made : vaultCreate argon2id lib env opts = .ok (handle, blob)) : Whole handle := by
  unfold vaultCreate at made
  obtain ⟨_, -, made⟩ := bind_eq_ok.mp made
  obtain ⟨_, -, made⟩ := bind_eq_ok.mp made
  obtain ⟨_, -, made⟩ := bind_eq_ok.mp made
  obtain ⟨_, -, made⟩ := bind_eq_ok.mp made
  obtain ⟨_, -, made⟩ := bind_eq_ok.mp made
  obtain ⟨_, -, made⟩ := bind_eq_ok.mp made
  obtain ⟨_, -, made⟩ := bind_eq_ok.mp made
  obtain ⟨_, -, made⟩ := bind_eq_ok.mp made
  cases made
  exact .of_locked rfl rfl rfl

private theorem createStep_kept (opts : CreateOpts) : Kept (.create opts) world (createStep argon2id lib env opts world) := by
  unfold createStep
  cases checked : checkInitialPayload env opts with
  | error problem => exact .refuse _ fun _ _ _ wrong => by cases wrong
  | ok _ =>
    rcases made : vaultCreate argon2id lib env opts with problem | ⟨handle, blob⟩
    · exact .clear _ rfl rfl
    · have replaces := writeFileAtomic_replaces env.disk blob world.files
      simp only [install]
      unfold Proc.Ends at replaces
      rcases wrote : writeFileAtomic env.disk blob world.files with ⟨problem | _, files⟩
      · rw [wrote] at replaces
        exact ⟨fun _ _ wrong => (by cases wrong), fun _ _ _ wrong => (by cases wrong),
          fun _ _ => ⟨replaces.undone nofun, .inr ⟨rfl, rfl⟩⟩⟩
      · refine .succeed rfl fun _ other there => ?_
        cases there
        exact vaultCreate_locked made

private theorem vaultOpen_locked {file : Option Bytes} {handle : Handle}
    (made : vaultOpen env.toEnv file = .ok handle) : Whole handle := by
  unfold vaultOpen at made
  obtain ⟨_, -, made⟩ := bind_eq_ok.mp made
  obtain ⟨_, -, made⟩ := bind_eq_ok.mp made
  obtain ⟨_, -, made⟩ := bind_eq_ok.mp made
  cases made
  exact .of_locked rfl rfl rfl

private theorem openStep_kept : Kept .openVault world (openStep env world) := by
  unfold openStep
  split
  · exact .clear _ rfl rfl
  · cases made : vaultOpen env.toEnv world.files.vault with
    | error stop => exact .clear _ rfl rfl
    | ok handle =>
      refine .succeed rfl fun _ other there => ?_
      cases there
      exact vaultOpen_locked made

private theorem vaultUnlock_whole {factors : Factors} {file : Option Bytes} {handle opened : Handle} (whole : Whole handle)
    (done : vaultUnlock argon2id lib env.toEnv factors file handle = .ok opened) : Whole opened := by
  unfold vaultUnlock at done
  by_cases unlocked : handle.contents.locked = false
  · rw [if_pos unlocked] at done
    cases done
    exact whole
  · rw [if_neg unlocked] at done
    obtain ⟨_, -, done⟩ := bind_eq_ok.mp done
    obtain ⟨_, -, done⟩ := bind_eq_ok.mp done
    obtain ⟨_, -, done⟩ := bind_eq_ok.mp done
    obtain ⟨_, -, done⟩ := bind_eq_ok.mp done
    cases done
    exact ⟨fun wrong => (by cases wrong), fun _ => Option.some_ne_none _⟩

private theorem unlockStep_kept (factors : Factors) {handle : Handle} (there : world.handle = some handle) :
    Kept (.unlock factors) world (unlockStep argon2id lib env factors world handle) := by
  unfold unlockStep
  cases done : vaultUnlock argon2id lib env.toEnv factors world.files.vault handle with
  | error stop => exact .refuse _ fun _ _ _ wrong => by cases wrong
  | ok opened =>
    refine .succeed rfl fun whole other here => ?_
    cases here
    exact vaultUnlock_whole (whole handle there) done

private theorem payloadStep_kept {α : Type} {call : Call} {body : Vault α} (edits : Edits body) {handle : Handle}
    (there : world.handle = some handle)
    (refused : handle.contents.locked = true → body handle.contents = (.error call.refusal, handle.contents)) :
    Kept call world (payloadStep body world handle) := by
  have kept : (body handle.contents).2.locked = handle.contents.locked := edits.keeps handle.contents
  refine ⟨fun whole other here => ?_, fun other here lock _ => ?_, fun problem failed => ⟨rfl, .inl ?_⟩⟩
  · cases here
    refine ⟨fun lock => ?_, fun unlock => (whole handle there).unlocked (kept.symm.trans unlock)⟩
    have before : handle.contents.locked = true := kept.symm.trans lock
    change handle.masterKey = none ∧ (body handle.contents).2.payload = []
    rw [refused before]
    exact (whole handle there).locked before
  · rw [there] at here
    cases here
    unfold payloadStep
    rw [refused lock]
    rfl
  · have same : (body handle.contents).2 = handle.contents := by
      cases outcome : (body handle.contents).1 with
      | error problem => exact edits.atomic handle.contents problem outcome
      | ok value =>
        have wrong : ofPm ((body handle.contents).1.map fun _ => ()) = .error (.error problem) := failed
        rw [outcome] at wrong
        cases wrong
    change some { handle with contents := (body handle.contents).2 } = _
    rw [same, there]

private theorem vaultSave_locked {handle : Handle} (lock : handle.contents.locked = true) :
    vaultSave lib { env.toEnv with writable := true } handle = .error .locked := by
  unfold vaultSave ensure
  rw [if_neg (by rw [lock]; exact Bool.noConfusion)]
  rfl

private theorem saveStep_kept {handle : Handle} (there : world.handle = some handle) :
    Kept .save world (saveStep lib env world handle) := by
  unfold saveStep
  rcases made : vaultSave lib { env.toEnv with writable := true } handle with problem | ⟨saved, blob⟩
  · refine .refuse _ fun other here lock _ => ?_
    rw [there] at here
    cases here
    rw [vaultSave_locked lock] at made
    cases made
    rfl
  · obtain ⟨stored, rfl⟩ := vaultSave_stored made
    have unlocked (other : Handle) (here : world.handle = some other) (lock : other.contents.locked = true) : False := by
      rw [there] at here
      cases here
      rw [stored.unlocked] at lock
      cases lock
    have replaces := writeFileAtomic_replaces env.disk blob world.files
    unfold Proc.Ends at replaces
    simp only [install]
    rcases wrote : writeFileAtomic env.disk blob world.files with ⟨problem | _, files⟩
    · rw [wrote] at replaces
      refine ⟨fun whole other here => ?_, fun other here lock _ => (unlocked other here lock).elim,
        fun _ _ => ⟨replaces.undone nofun, .inl there.symm⟩⟩
      cases here
      exact whole handle there
    · refine ⟨fun whole other here => ?_, fun other here lock _ => (unlocked other here lock).elim, nofun⟩
      cases here
      exact ⟨(whole handle there).locked, (whole handle there).unlocked⟩

private theorem step_kept (argon2id : Argon2id) (lib : Primitives) (input : Input) (world : World) :
    Kept input.call world (step argon2id lib input world) := by
  unfold step
  cases input.call with
  | create opts => exact createStep_kept opts
  | openVault => exact openStep_kept
  | unlock factors => exact onHandle_kept fun handle there => unlockStep_kept factors there
  | lock =>
    refine onHandle_kept fun handle there => .succeed rfl fun _ other here => ?_
    cases here
    exact .of_locked rfl rfl rfl
  | edit edit =>
    exact onHandle_kept fun handle there => payloadStep_kept (edits_change _ edit) there fun lock => change_locked lock _ edit
  | getPayloadModel =>
    exact onHandle_kept fun handle there => payloadStep_kept (.of_keeps (keeps_getPayload _))
      there fun lock => getPayloadModel_locked lock _
  | entryGet entryId =>
    exact onHandle_kept fun handle there => payloadStep_kept (.of_keeps (keeps_entryGet _ entryId))
      there fun lock => entryGet_locked lock _ entryId
  | save => exact onHandle_kept fun handle there => saveStep_kept there
  | elsewhere file => exact .succeed rfl id

end

/-- What a call leaves behind: a handle that is locked exactly when it holds neither payload
nor key; an error if it needed the payload of a locked handle; and nothing new if it failed. -/
structure Orderly (event : Event World Input Outcome) : Prop where
  sealed : ∀ handle, event.after.handle = some handle → Sealed handle
  refuses : ∀ handle, event.before.handle = some handle → handle.contents.locked = true →
    event.input.call.needsPayload = true →
    event.outcome = .error (.error event.input.call.refusal)
  undoes : ∀ problem, event.outcome = .error (.error problem) → Undone event.input.call event.before event.after

theorem calls_are_orderly (argon2id : Argon2id) (lib : Primitives) (files : Files) (inputs : List Input) :
    ∀ event ∈ (lifecycle argon2id lib).run { files, handle := none } inputs, Orderly event := by
  have good : Throughout ((lifecycle argon2id lib).run { files, handle := none } inputs) fun _ event => Orderly event := by
    refine Machine.run_every (fun _ world => ∀ handle, world.handle = some handle → Whole handle) ?_ ?_ ?_ inputs
    · exact fun _ world input whole => (step_kept argon2id lib input world).whole whole
    · intro _ world input whole
      have kept := step_kept argon2id lib input world
      exact ⟨fun handle there => (kept.whole whole handle there).sealed, kept.refused, kept.undone⟩
    · exact fun handle there => by cases there
  exact fun event inside => good.of_mem inside

def calmly : Env where
  toEnv := steadily
  memory := .plenty
  pathFits := true
  disk := { tmpPathFits := true, opens := true, writes := [], syncs := true, renames := true }

def newVault : CreateOpts where
  format := { versionMajor := 1, versionMinor := 0, flags := 0, fileSequence := 0, argon2 := defaultArgon2, compositeMode := 0 }
  mode := ⟨false, false, true, false⟩
  password := []
  wrappingKey := none
  keyfileHash := some (.zero masterKeySize)
  yubikeyKey := none
  initialPayload := Store.emptyVault 1

def noFiles : Files := { vault := none, tmp := none }

def nameless : List Input := [{ call := .create newVault, env := calmly },
    { call := .edit (.entryRemove .empty), env := calmly }]

def namelessRun : List (Event World Input Outcome) :=
    (lifecycle noArgon2id plainly).run { files := noFiles, handle := none } nameless

private theorem namelessRun_second : (namelessRun[1]?.map fun event =>
    (event.before.handle.map fun handle => handle.contents.locked, event.input.call.needsPayload, event.outcome)) =
    some (some true, true, .error (.error .invalidParam)) := by decide +kernel

theorem calls_are_orderly_nameless : ∃ event ∈ (lifecycle noArgon2id plainly).run { files := noFiles, handle := none }
    nameless,
    event.outcome = .error (.error .invalidParam) ∧ Orderly event := by
  obtain ⟨event, there, shape⟩ := Option.map_eq_some_iff.mp namelessRun_second
  have inside := List.mem_of_getElem? there
  exact ⟨event, inside, (Prod.mk.inj (Prod.mk.inj shape).2).2,
    calls_are_orderly noArgon2id plainly noFiles nameless event inside⟩

/-- The removal is refused for the missing name, not for the lock. -/
theorem locked_answers_invalid_param : ∃ event ∈ (lifecycle noArgon2id plainly).run
    { files := noFiles, handle := none } nameless,
    ∃ handle, event.before.handle = some handle ∧ handle.contents.locked = true ∧ event.input.call.needsPayload = true ∧
      event.outcome ≠ .error (.error .locked) := by
  obtain ⟨event, there, shape⟩ := Option.map_eq_some_iff.mp namelessRun_second
  obtain ⟨lock, rest⟩ := Prod.mk.inj shape
  obtain ⟨needs, answer⟩ := Prod.mk.inj rest
  obtain ⟨handle, held, locked⟩ := Option.map_eq_some_iff.mp lock
  refine ⟨event, List.mem_of_getElem? there, handle, held, locked, needs, ?_⟩
  rw [answer]
  decide

end Hiya.Pm.Lifecycle
