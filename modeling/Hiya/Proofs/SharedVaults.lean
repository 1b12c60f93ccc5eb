import Hiya.Proofs.VaultEdits
import Hiya.Proofs.VaultFormats

/-! Several handles on one vault file. Only saves change the file, and each of them writes
what its handle holds, under the number that follows the one its handle holds. So a save
is in order if nobody else has saved since its handle took these from the file. -/

namespace Hiya.Pm.Store
open Library Format

variable {ι : Type} {argon2id : Argon2id} {lib : Primitives} {env : Env}

abbrev Step (ι : Type) := Event (World ι) (Input ι) Outcome

def Saves (who : ι) (event : Step ι) : Prop := event.input.who = who ∧ event.input.call = .save ∧ event.outcome = .ok ()

def Opens (who : ι) (event : Step ι) : Prop := event.input.who = who ∧ event.input.call = .openVault ∧ event.outcome = .ok ()

def Unlocks (who : ι) (event : Step ι) : Prop :=
  event.input.who = who ∧ (∃ factors, event.input.call = .unlock factors) ∧ event.outcome = .ok () ∧
    ∃ handle, event.before.handles who = some handle ∧ handle.contents.locked = true

def Intrudes (who : ι) (event : Step ι) : Prop := ∃ other, other ≠ who ∧ Saves other event

def Outdated (who : ι) (past : List (Step ι)) : Prop :=
    Since (Intrudes who) (fun event => Opens who event ∨ Saves who event) past

def Meets (who : ι) (event : Step ι) : Prop := Unlocks who event ∨ Saves who event

/-- The last time before now that the handle has met the file. -/
def LastMeets (who : ι) (past : List (Step ι)) (event : Step ι) : Prop :=
  Meets who event ∧ ∃ front later, past = front ++ event :: later ∧ ∀ other ∈ later, ¬ Meets who other

/-- Somebody else has saved since the handle took its payload from the file or saved itself. -/
def Overtaken (who : ι) (past : List (Step ι)) : Prop := Since (Intrudes who) (Meets who) past

/-- The number in the header of the file. -/
def sequenceOf (file : Option Bytes) : Option UInt64 := do
  let metadata ← (vaultParseMetadata (← file)).toOption
  pure metadata.params.fileSequence

/-- What a handle that was not overtaken knows of the file. -/
structure Tracks (past : List (Step ι)) (world : World ι) : Prop where
  number : ∀ who handle, world.handles who = some handle → ¬ Outdated who past →
    sequenceOf world.file = some handle.format.fileSequence
  payload : ∀ who handle, world.handles who = some handle → handle.contents.locked = false → ¬ Overtaken who past →
    ∃ earlier, LastMeets who past earlier ∧ earlier.after.file = world.file

section
variable {past : List (Step ι)} {event : Step ι} {who : ι}

theorem LastMeets.now (meets : Meets who event) : LastMeets who (past ++ [event]) event := by
  refine ⟨meets, past, [], rfl, fun other inside => ?_⟩
  cases inside

theorem LastMeets.snoc {earlier : Step ι} (last : LastMeets who past earlier) (apart : ¬ Meets who event) :
    LastMeets who (past ++ [event]) earlier := by
  obtain ⟨meets, front, later, rfl, alone⟩ := last
  refine ⟨meets, front, later ++ [event], by rw [List.append_assoc, List.cons_append], fun other inside => ?_⟩
  obtain inside | inside := List.mem_append.mp inside
  · exact alone other inside
  · rwa [List.mem_singleton.mp inside]

/-- A step that is none of the handle's own leaves no more behind than was there. -/
theorem fresh_before {cancel : Step ι → Prop} (fresh : ¬ Since (Intrudes who) cancel (past ++ [event]))
    (other : ¬ cancel event) :
    ¬ Since (Intrudes who) cancel past := fun since => fresh (since_snoc.mpr (.inr ⟨since, other⟩))

theorem not_intrudes {cancel : Step ι → Prop} (fresh : ¬ Since (Intrudes who) cancel (past ++ [event])) :
    ¬ Intrudes who event :=
  fun intrudes => fresh (since_snoc.mpr (.inl intrudes))

end

theorem tracks_closed (file : Option Bytes) : Tracks [] (World.closed file : World ι) :=
  ⟨fun _ _ wrong => (by cases wrong), fun _ _ wrong => (by cases wrong)⟩

def Idle (before after : World ι) : Prop :=
  after.file = before.file ∧ ∀ who handle, after.handles who = some handle →
    ∃ old, before.handles who = some old ∧ handle.format = old.format ∧
      (handle.contents.locked = false → old.contents.locked = false)

theorem Idle.refl (world : World ι) : Idle world world := ⟨rfl, fun _ handle there => ⟨handle, there, rfl, id⟩⟩

theorem Tracks.idle {past : List (Step ι)} {world : World ι} {input : Input ι} (tracks : Tracks past world)
    {result : Outcome × World ι} (idle : Idle world result.2)
    (quiet : result.1 = .ok () → input.call ≠ .save ∧ input.call ≠ .openVault ∧
      ∀ factors, input.call = .unlock factors → ∀ handle, world.handles input.who = some handle →
      handle.contents.locked = false) :
    Tracks (past ++ [⟨world, input, result.1, result.2⟩]) result.2 := by
  obtain ⟨file, handles⟩ := idle
  have noSave (who : ι) : ¬ Saves who ⟨world, input, result.1, result.2⟩ := fun saves => (quiet saves.2.2).1 saves.2.1
  have noOpen (who : ι) : ¬ Opens who ⟨world, input, result.1, result.2⟩ := fun opens => (quiet opens.2.2).2.1 opens.2.1
  have noUnlock (who : ι) : ¬ Unlocks who ⟨world, input, result.1, result.2⟩ := by
    intro ⟨mine, ⟨factors, call⟩, done, handle, there, locked⟩
    have unlocked := (quiet done).2.2 factors call handle (mine ▸ there)
    rw [locked] at unlocked
    cases unlocked
  refine ⟨fun who handle there fresh => ?_, fun who handle there unlocked fresh => ?_⟩
  · obtain ⟨old, before, format, -⟩ := handles who handle there
    rw [file, format]
    exact tracks.number who old before (fresh_before fresh fun either => either.elim (noOpen who) (noSave who))
  · obtain ⟨old, before, -, stays⟩ := handles who handle there
    have apart : ¬ Meets who _ := fun either => either.elim (noUnlock who) (noSave who)
    obtain ⟨earlier, last, same⟩ := tracks.payload who old before (stays unlocked) (fresh_before fresh apart)
    exact ⟨earlier, last.snoc apart, same.trans file.symm⟩

variable [DecidableEq ι]

theorem Idle.put {world : World ι} {who : ι} {new : Option Handle}
    (fine : ∀ handle, new = some handle → ∃ old, world.handles who = some old ∧ handle.format = old.format ∧
      (handle.contents.locked = false → old.contents.locked = false)) : Idle world (world.put who new) := by
  refine ⟨rfl, fun other handle there => ?_⟩
  by_cases here : other = who
  · subst here
    have same : (world.put other new).handles other = new := Function.update_self ..
    exact fine handle (same.symm.trans there)
  · have same : (world.put who new).handles other = world.handles other := Function.update_of_ne here ..
    exact ⟨handle, same.symm.trans there, rfl, id⟩

/-- The ways in which a step can matter. -/
inductive Acts (argon2id : Argon2id) (lib : Primitives) (input : Input ι) (world : World ι) : Outcome × World ι → Prop
  | idle (result : Outcome × World ι) (idle : Idle world result.2)
      (quiet : result.1 = .ok () → input.call ≠ .save ∧ input.call ≠ .openVault ∧
        ∀ factors, input.call = .unlock factors → ∀ handle, world.handles input.who = some handle →
        handle.contents.locked = false) :
      Acts argon2id lib input world result
  | opened (handle : Handle) (call : input.call = .openVault) (made : vaultOpen input.env world.file = .ok handle) :
      Acts argon2id lib input world (.ok (), world.put input.who (some handle))
  | unlocked (factors : Factors) (old handle : Handle) (call : input.call = .unlock factors)
    (there : world.handles input.who = some old)
      (locked : old.contents.locked = true) (format : handle.format = old.format) :
      Acts argon2id lib input world (.ok (), world.put input.who (some handle))
  | saved (handle saved : Handle) (blob : Bytes) (call : input.call = .save) (there : world.handles input.who = some handle)
      (made : vaultSave lib input.env handle = .ok (saved, blob)) :
      Acts argon2id lib input world (.ok (), { world.put input.who (some saved) with file := some blob })

section
variable {input : Input ι} {world : World ι}

theorem onHandle_acts {use : Handle → Outcome × World ι}
    (acts : ∀ handle, world.handles input.who = some handle → Acts argon2id lib input world (use handle)) :
    Acts argon2id lib input world (onHandle input.who world use) := by
  unfold onHandle
  cases there : world.handles input.who with
  | none => exact .idle _ (.refl world) fun wrong => by cases wrong
  | some handle => exact acts handle there

theorem openStep_acts (call : input.call = .openVault) :
    Acts argon2id lib input world (openStep input.env input.who world) := by
  unfold openStep
  cases made : vaultOpen input.env world.file with
  | error stop => exact .idle _ (.put fun _ wrong => by cases wrong) fun wrong => by cases wrong
  | ok handle => exact .opened handle call made

theorem vaultUnlock_format {factors : Factors} {file : Option Bytes} {old handle : Handle}
    (done : vaultUnlock argon2id lib env factors file old = .ok handle) : handle.format = old.format := by
  unfold vaultUnlock at done
  by_cases unlocked : old.contents.locked = false
  · rw [if_pos unlocked] at done
    cases done
    rfl
  · rw [if_neg unlocked] at done
    obtain ⟨_, -, done⟩ := bind_eq_ok.mp done
    obtain ⟨_, -, done⟩ := bind_eq_ok.mp done
    obtain ⟨_, -, done⟩ := bind_eq_ok.mp done
    obtain ⟨_, -, done⟩ := bind_eq_ok.mp done
    cases done
    rfl

theorem unlockStep_acts {factors : Factors} (call : input.call = .unlock factors) {old : Handle}
    (there : world.handles input.who = some old) :
    Acts argon2id lib input world (unlockStep argon2id lib input.env factors input.who world old) := by
  unfold unlockStep
  cases done : vaultUnlock argon2id lib input.env factors world.file old with
  | error stop => exact .idle _ (.refl world) fun wrong => by cases wrong
  | ok handle =>
    cases locked : old.contents.locked with
    | true => exact .unlocked factors old handle call there locked (vaultUnlock_format done)
    | false =>
      have same : handle = old := by
        unfold vaultUnlock at done
        rw [if_pos locked] at done
        exact (Except.ok.inj done).symm
      refine .idle _ (.put fun other equal => ?_) fun _ => ?_
      · cases equal
        exact ⟨old, there, congrArg _ same, fun _ => locked⟩
      · rw [call]
        refine ⟨nofun, nofun, fun _ _ handle here => ?_⟩
        rw [there] at here
        cases here
        exact locked

theorem editStep_acts {change : Edit} (call : input.call = .edit change) {old : Handle}
    (there : world.handles input.who = some old) :
    Acts argon2id lib input world (editStep change input.who world old) := by
  have kept : (change.apply old.contents).2.locked = old.contents.locked := change.edits.keeps old.contents
  refine .idle _ (.put fun handle equal => ?_) fun _ => ?_
  · cases equal
    exact ⟨old, there, rfl, fun unlocked => kept.symm.trans unlocked⟩
  · rw [call]
    exact ⟨nofun, nofun, nofun⟩

theorem saveStep_acts (call : input.call = .save) {handle : Handle} (there : world.handles input.who = some handle) :
    Acts argon2id lib input world (saveStep lib input.env input.who world handle) := by
  unfold saveStep
  rcases made : vaultSave lib input.env handle with problem | ⟨saved, blob⟩
  · exact .idle _ (.refl world) fun wrong => by cases wrong
  · exact .saved handle saved blob call there made

theorem step_acts (input : Input ι) (world : World ι) : Acts argon2id lib input world (step argon2id lib input world) := by
  unfold step
  cases call : input.call with
  | openVault => exact openStep_acts call
  | unlock factors => exact onHandle_acts fun handle there => unlockStep_acts call there
  | lock =>
    refine onHandle_acts fun handle there => .idle _ (.put fun other equal => ?_) fun _ => ?_
    · cases equal
      exact ⟨handle, there, rfl, nofun⟩
    · rw [call]
      exact ⟨nofun, nofun, nofun⟩
  | edit change => exact onHandle_acts fun handle there => editStep_acts call there
  | save => exact onHandle_acts fun handle there => saveStep_acts call there
  | close =>
    refine .idle _ (.put fun _ wrong => by cases wrong) fun _ => ?_
    rw [call]
    exact ⟨nofun, nofun, nofun⟩

end

structure Stored (lib : Primitives) (handle : Handle) (blob : Bytes) : Prop where
  unlocked : handle.contents.locked = false
  limited : handle.format.fileSequence ≠ 0xFFFFFFFFFFFFFFFF
  file : ∃ key env, handle.masterKey = some key ∧ vaultSerialize lib env (saveRequest handle key) = .ok blob

theorem vaultSave_stored {handle saved : Handle} {blob : Bytes} (made : vaultSave lib env handle = .ok (saved, blob)) :
    Stored lib handle blob ∧ saved = { handle with format := saveFormat handle } := by
  unfold vaultSave at made
  obtain ⟨_, unlocked, made⟩ := bind_eq_ok.mp made
  obtain ⟨key, keyed, made⟩ := bind_eq_ok.mp made
  obtain ⟨_, -, made⟩ := bind_eq_ok.mp made
  obtain ⟨_, limited, made⟩ := bind_eq_ok.mp made
  obtain ⟨written, serialized, made⟩ := bind_eq_ok.mp made
  obtain ⟨_, -, made⟩ := bind_eq_ok.mp made
  cases made
  exact ⟨⟨ensure_eq_ok.mp unlocked, ensure_eq_ok.mp limited, key, env.format, orFail_eq_ok.mp keyed, serialized⟩, rfl⟩

theorem sequenceOf_parsed {blob : Bytes} {metadata : Metadata} (parsed : vaultParseMetadata blob = .ok metadata) :
    sequenceOf (some blob) = some metadata.params.fileSequence := by
  change (vaultParseMetadata blob).toOption.bind _ = _
  rw [parsed]
  rfl

theorem Stored.sequence {handle : Handle} {blob : Bytes} (stored : Stored lib handle blob) (lawful : lib.Lawful) :
    sequenceOf (some blob) = some (handle.format.fileSequence + 1) := by
  obtain ⟨key, env, -, serialized⟩ := stored.file
  obtain ⟨file, same⟩ := vaultSerialize_written serialized
  have parsed := file.parses lawful
  rw [← same] at parsed
  exact sequenceOf_parsed parsed

theorem vaultOpen_sequence {file : Option Bytes} {handle : Handle} (made : vaultOpen env file = .ok handle) :
    sequenceOf file = some handle.format.fileSequence ∧ handle.contents.locked = true := by
  unfold vaultOpen at made
  obtain ⟨_, -, made⟩ := bind_eq_ok.mp made
  obtain ⟨blob, read, made⟩ := bind_eq_ok.mp made
  obtain ⟨metadata, parsed, made⟩ := bind_eq_ok.mp made
  have read := ofPm_eq_ok.mp read
  unfold readFileAll at read
  obtain ⟨bytes, there, read⟩ := bind_eq_ok.mp read
  obtain ⟨_, -, read⟩ := bind_eq_ok.mp read
  obtain ⟨_, -, read⟩ := bind_eq_ok.mp read
  obtain ⟨_, -, read⟩ := bind_eq_ok.mp read
  cases read
  rw [orFail_eq_ok.mp there]
  cases made
  exact ⟨sequenceOf_parsed parsed, rfl⟩

section
variable {past : List (Step ι)} {world : World ι} {input : Input ι}

/-- A step that only one handle takes part in, and that is no save. -/
theorem Tracks.replace (tracks : Tracks past world) {handle : Handle} {outcome : Outcome} (call : input.call ≠ .save)
    (number : ¬ Outdated input.who (past ++ [⟨world, input, outcome, world.put input.who (some handle)⟩]) →
      sequenceOf world.file = some handle.format.fileSequence)
    (payload : handle.contents.locked = false →
    Unlocks input.who ⟨world, input, outcome, world.put input.who (some handle)⟩) :
    Tracks (past ++ [⟨world, input, outcome, world.put input.who (some handle)⟩]) (world.put input.who (some handle)) := by
  have noSave (who : ι) : ¬ Saves who ⟨world, input, outcome, world.put input.who (some handle)⟩ :=
    fun saves => call saves.2.1
  have here : (world.put input.who (some handle)).handles input.who = some handle := Function.update_self ..
  have elsewhere {who : ι} (different : who ≠ input.who) : (world.put input.who (some handle)).handles who =
    world.handles who :=
    Function.update_of_ne different ..
  refine ⟨fun who other there fresh => ?_, fun who other there unlocked fresh => ?_⟩
  · by_cases mine : who = input.who
    · subst mine
      cases here.symm.trans there
      exact number fresh
    · have kept := fresh_before fresh fun either => either.elim (fun opens => mine opens.1.symm) (noSave who)
      exact tracks.number who other ((elsewhere mine).symm.trans there) kept
  · by_cases mine : who = input.who
    · subst mine
      cases here.symm.trans there
      exact ⟨_, .now (.inl (payload unlocked)), rfl⟩
    · have apart : ¬ Meets who _ := fun either => either.elim (fun unlocks => mine unlocks.1.symm) (noSave who)
      obtain ⟨earlier, last, same⟩ := tracks.payload who other ((elsewhere mine).symm.trans there) unlocked
        (fresh_before fresh apart)
      exact ⟨earlier, last.snoc apart, same⟩

/-- After a save the handle that saved is the only one that still knows the file. -/
theorem Tracks.saved {saved : Handle} {blob : Bytes} (call : input.call = .save)
    (number : sequenceOf (some blob) = some saved.format.fileSequence) :
    Tracks (past ++ [⟨world, input, .ok (), { world.put input.who (some saved) with file := some blob }⟩])
      { world.put input.who (some saved) with file := some blob } := by
  have mine {who : ι} {cancel : Step ι → Prop}
      (fresh : ¬ Since (Intrudes who) cancel
        (past ++ [⟨world, input, .ok (), { world.put input.who (some saved) with file := some blob }⟩])) :
      who = input.who := by
    by_contra other
    exact not_intrudes fresh ⟨input.who, fun same => other same.symm, rfl, call, rfl⟩
  have here : (world.put input.who (some saved)).handles input.who = some saved := Function.update_self ..
  refine ⟨fun who other there fresh => ?_, fun who other there unlocked fresh => ?_⟩
  · cases mine fresh
    cases here.symm.trans there
    exact number
  · cases mine fresh
    exact ⟨_, .now (.inr ⟨rfl, call, rfl⟩), rfl⟩

theorem Tracks.next (lawful : lib.Lawful) (tracks : Tracks past world) {result : Outcome × World ι}
    (acts : Acts argon2id lib input world result) :
    Tracks (past ++ [⟨world, input, result.1, result.2⟩]) result.2 := by
  cases acts with
  | idle _ idle quiet => exact tracks.idle idle quiet
  | opened handle call made =>
    obtain ⟨sequence, locked⟩ := vaultOpen_sequence made
    refine tracks.replace (by rw [call]; nofun) (fun _ => sequence) fun unlocked => ?_
    rw [locked] at unlocked
    cases unlocked
  | unlocked factors old handle call there locked format =>
    refine tracks.replace (by rw [call]; nofun) (fun fresh => ?_) fun _ => ?_
    · rw [format]
      refine tracks.number input.who old there (fresh_before fresh fun either => ?_)
      obtain opens | saves := either
      · have wrong := call.symm.trans opens.2.1
        cases wrong
      · have wrong := call.symm.trans saves.2.1
        cases wrong
    · exact ⟨rfl, ⟨factors, call⟩, rfl, old, there, locked⟩
  | saved handle saved blob call there made =>
    obtain ⟨stored, rfl⟩ := vaultSave_stored made
    exact Tracks.saved call (stored.sequence lawful)

end

def Holds (lib : Primitives) (file : Option Bytes) (key : Buf masterKeySize) (payload : Bytes) (number : UInt64) : Prop :=
  ∃ blob, file = some blob ∧ ∀ later : Format.Env, later.cryptoReady = true → later.allocates payload.length = true →
    ∃ result, vaultDeserialize lib later blob key = .ok result ∧ result.payload = payload ∧
      result.params.fileSequence = number

theorem Stored.holds {handle : Handle} {blob : Bytes} (stored : Stored lib handle blob) (lawful : lib.Lawful) :
    ∃ key, handle.masterKey = some key ∧ Holds lib (some blob) key handle.contents.payload
    (handle.format.fileSequence + 1) := by
  obtain ⟨key, env, keyed, serialized⟩ := stored.file
  refine ⟨key, keyed, blob, rfl, fun later ready room => ?_⟩
  obtain ⟨file, same⟩ := vaultSerialize_written serialized
  have read := file.deserializes lawful ready room
  rw [← same] at read
  exact ⟨_, read, rfl, rfl⟩

/-- What a save does, and what it does in order: the number in the file grows unless
somebody else has saved since the handle was opened or saved itself, and the file that
is replaced is the one the handle has met last unless somebody else has saved since. -/
structure SavesInOrder (lib : Primitives) (past : List (Step ι)) (event : Step ι) (who : ι) : Prop where
  writes : ∃ handle key, event.before.handles who = some handle ∧ handle.masterKey = some key ∧
    Holds lib event.after.file key handle.contents.payload (handle.format.fileSequence + 1)
  grows : ¬ Outdated who past → ∃ old new, sequenceOf event.before.file = some old ∧
    sequenceOf event.after.file = some new ∧ old < new
  knows : ¬ Overtaken who past → ∃ earlier, LastMeets who past earlier ∧ earlier.after.file = event.before.file

theorem lt_succ_of_limited {number : UInt64} (limited : number ≠ 0xFFFFFFFFFFFFFFFF) : number < number + 1 := by
  have small := number.toNat_lt
  have other : number.toNat ≠ 0xFFFFFFFFFFFFFFFF := fun same => limited (UInt64.toNat_inj.mp same)
  rw [UInt64.lt_iff_toNat_lt, UInt64.toNat_add]
  have one : (1 : UInt64).toNat = 1 := rfl
  omega

theorem Tracks.saves {past : List (Step ι)} {world : World ι} {input : Input ι} (lawful : lib.Lawful)
    (tracks : Tracks past world)
    {result : Outcome × World ι} (acts : Acts argon2id lib input world result) {who : ι}
    (saves : Saves who ⟨world, input, result.1, result.2⟩) :
    SavesInOrder lib past ⟨world, input, result.1, result.2⟩ who := by
  obtain ⟨rfl, save, done⟩ := saves
  cases acts with
  | idle _ _ quiet => exact absurd save (quiet done).1
  | opened _ call _ =>
    have wrong := call.symm.trans save
    cases wrong
  | unlocked _ _ _ call =>
    have wrong := call.symm.trans save
    cases wrong
  | saved handle saved blob call there made =>
    obtain ⟨stored, rfl⟩ := vaultSave_stored made
    obtain ⟨key, keyed, holds⟩ := stored.holds lawful
    refine ⟨⟨handle, key, there, keyed, holds⟩, fun fresh => ?_,
      fun fresh => tracks.payload _ handle there stored.unlocked fresh⟩
    exact ⟨_, _, tracks.number _ handle there fresh, stored.sequence lawful, lt_succ_of_limited stored.limited⟩

/-- In every run of handles on one file, every save is in order. -/
theorem saves_in_order (argon2id : Argon2id) (lib : Primitives) (lawful : lib.Lawful) (file : Option Bytes)
    (inputs : List (Input ι)) :
    Throughout ((store argon2id lib).run (.closed file) inputs) fun past event =>
      ∀ who, Saves who event → SavesInOrder lib past event who := by
  refine Machine.run_every Tracks ?_ ?_ (tracks_closed file) inputs
  · exact fun past world input tracks => tracks.next lawful (step_acts input world)
  · exact fun past world input tracks who saves => tracks.saves lawful (step_acts input world) saves

/-- A vault without entries that was last changed at some time. -/
def emptyVault (updatedAt : UInt8) : Bytes := [0xA5, 1, 1, 2, 1, 3, updatedAt, 4, 0x80, 5, 0x80]

def firstFile : Option Bytes :=
  (vaultSerialize plainly quietly {
    params := { versionMajor := 1, versionMinor := 0, flags := 4, fileSequence := 7, argon2 := defaultArgon2, compositeMode := 9 }
    masterKey := .zero masterKeySize
    payload := emptyVault 1
    salt := none
    iv := none }).toOption

def noArgon2id : Argon2id := fun _ => .error .kdf

def steadily : Env where
  format := quietly
  handleMemory := true
  keyMemory := .ok ()
  readable := true
  writable := true

def keyfile : Factors where
  password := []
  wrappingKey := none
  keyfileHash := some (.zero masterKeySize)

def asks (who : Bool) (call : Call) : Input Bool := { who, call, env := steadily }

def crossing : List (Input Bool) := [
  asks true .openVault, asks false .openVault, asks true (.unlock keyfile), asks false (.unlock keyfile),
  asks true (.edit (.setPayload (emptyVault 2))), asks true .save,
  asks false (.edit (.setPayload (emptyVault 3))), asks false .save]

def crossed : List (Step Bool) := (store noArgon2id plainly).run (.closed firstFile) crossing

theorem saves_in_order_crossed : Throughout crossed fun past event => ∀ who, Saves who event →
    SavesInOrder plainly past event who :=
  saves_in_order noArgon2id plainly plainly_lawful firstFile crossing

/-- The payload that the key of these handles finds in the file. -/
def payloadOf (file : Option Bytes) : Option Bytes := do
  let result ← (vaultDeserialize plainly quietly (← file) (.zero masterKeySize)).toOption
  pure result.payload

def Call.isSave : Call → Bool
  | .save => true
  | _ => false

def Call.isEdit : Call → Bool
  | .edit _ => true
  | _ => false

def summary (event : Step Bool) : (Bool × Bool × Bool × Bool) × (Option UInt64 × Option UInt64) × Option Bytes :=
  ((event.input.who, event.input.call.isSave, event.input.call.isEdit, event.outcome.isOk),
    (sequenceOf event.before.file, sequenceOf event.after.file), payloadOf event.after.file)

theorem crossed_summary : (crossed.drop 5).map summary = [
    ((true, true, false, true), (some 7, some 8), some (emptyVault 2)),
    ((false, false, true, true), (some 8, some 8), some (emptyVault 2)),
    ((false, true, false, true), (some 8, some 8), some (emptyVault 3))] := by decide +kernel

theorem Call.of_isSave {call : Call} (save : call.isSave = true) : call = .save := by
  cases call with
  | save => rfl
  | openVault | unlock | lock | edit | close => cases save

theorem outcome_of_isOk {outcome : Outcome} (done : outcome.isOk = true) : outcome = .ok () := by
  cases outcome with
  | error stop => cases done
  | ok _ => rfl

/-- The second save succeeds although the first one came in between. The number in the
file stays the same, and what the first has saved is gone. -/
theorem update_is_lost : ∃ front first edit second, crossed = front ++ [first, edit, second] ∧ Saves true first ∧
    Saves false second ∧
    Overtaken false (front ++ [first, edit]) ∧ sequenceOf second.after.file = sequenceOf second.before.file ∧
    payloadOf first.after.file = some (emptyVault 2) ∧ payloadOf second.after.file = some (emptyVault 3) := by
  obtain ⟨first, rest, shape, one, others⟩ := List.map_eq_cons_iff.mp crossed_summary
  obtain ⟨edit, rest, rfl, two, others⟩ := List.map_eq_cons_iff.mp others
  obtain ⟨second, rest, rfl, three, others⟩ := List.map_eq_cons_iff.mp others
  cases List.map_eq_nil_iff.mp others
  obtain ⟨⟨firstWho, firstSave, -, firstDone⟩, -, firstPayload⟩ := by simpa only [summary, Prod.mk.injEq] using one
  obtain ⟨⟨-, editSave, editEdit, -⟩, -⟩ := by simpa only [summary, Prod.mk.injEq] using two
  obtain ⟨⟨secondWho, secondSave, -, secondDone⟩, ⟨before, after⟩, secondPayload⟩ :=
    by simpa only [summary, Prod.mk.injEq] using three
  have firstSaves : Saves true first := ⟨firstWho, Call.of_isSave firstSave, outcome_of_isOk firstDone⟩
  have secondSaves : Saves false second := ⟨secondWho, Call.of_isSave secondSave, outcome_of_isOk secondDone⟩
  have unrelated : ¬ Meets false edit := by
    intro meets
    obtain ⟨-, ⟨factors, call⟩, -⟩ | ⟨-, call, -⟩ := meets
    · rw [call] at editEdit
      cases editEdit
    · rw [call] at editSave
      cases editSave
  refine ⟨crossed.take 5, first, edit, second, ?_, firstSaves, secondSaves, ?_, after.trans before.symm, firstPayload,
    secondPayload⟩
  · rw [← shape, List.take_append_drop]
  · refine ⟨crossed.take 5, first, [edit], rfl, ⟨true, Bool.noConfusion, firstSaves⟩, fun later inside => ?_⟩
    rw [List.mem_singleton.mp inside]
    exact unrelated

end Hiya.Pm.Store
