import Hiya.Proofs.ConfigWholeLines

/-! What reloads do to the settings of a running daemon. A file that is there and is read to its end
replaces the settings that can change; a file that is not there does so too, by the defaults. -/

namespace Hiya.Daemon.ConfigFile
open Library Tools

/-- The settings that need a restart. -/
def ConfigField.needsRestart (field : ConfigField) : Bool :=
  field ∈ [.stateDir, .tpmEnabled, .tpmDevice, .tpmPrimaryHandle, .deviceDriver]

def fromFile (content : Bytes) : BioDaemonConfig := (linesOf [] content).foldl takeWhole bioDaemonConfigDefaults

/-- What a reload has to make of what it finds. -/
structure Reloaded (found : ConfigFound) (before after : BioDaemonConfig) : Prop where
  restart : ∀ field : ConfigField, field.needsRestart → field.read after = field.read before
  missing : found = .cannotOpen → ∀ field : ConfigField, ¬ field.needsRestart → field.read after = field.read before
  present : ∀ content errorAfter, found = .opened content errorAfter →
    ∀ field : ConfigField, ¬ field.needsRestart → field.read after = field.read (fromFile content)

/-- A file that is there, of which no piece that sets something is lost, and all of whose lines act
as a whole. One that is not there does no harm while the defaults are in force. -/
def Harmless (found : ConfigFound) (before : BioDaemonConfig) : Prop :=
  match found with
  | .cannotOpen => ∀ field : ConfigField, ¬ field.needsRestart → field.read before = field.read bioDaemonConfigDefaults
  | .opened content errorAfter => (∀ line ∈ linesOf [] content, Whole line) ∧
    match errorAfter with
    | none => True
    | some count => ((fgetsAll 511 [] content).drop count).filterMap pieceSetting = []

def Fitting (config : BioDaemonConfig) : Prop := ∀ field : ConfigField, field.stored (field.read config) = field.read config

theorem fitting_defaults : Fitting bioDaemonConfigDefaults := by
  intro field
  cases field <;> decide +kernel

theorem Fitting.putAll {config : BioDaemonConfig} (fitting : Fitting config) (settings : List Setting) :
    Fitting (putAll settings config) := by
  induction settings generalizing config with
  | nil => exact fitting
  | cons setting settings ih =>
    refine ih fun field => ?_
    by_cases same : field = setting.field
    · subst same
      rw [setting.read_put, setting.fits]
    · rw [Setting.read_put_of_ne same, fitting]

theorem read_adopt {next : BioDaemonConfig} (fitting : Fitting next) (settings : BioDaemonConfig) (field : ConfigField) :
    field.read (adopt next settings) = if field.needsRestart then field.read settings else field.read next := by
  have cut := fitting .howdyBinary
  cases field <;> first | rfl | exact cut

theorem reloadDaemonConfig_eq (files : ConfigFiles) (d : LoadedConfig) :
    reloadDaemonConfig files d = { d with
      settings := adopt (match files (reloadPath d) with
        | .cannotOpen => bioDaemonConfigDefaults
        | .opened content errorAfter =>
          (piecesRead content errorAfter).foldl takeLine bioDaemonConfigDefaults) d.settings } := by
  unfold reloadDaemonConfig loadConfig
  cases files (reloadPath d) with
  | cannotOpen => rfl
  | opened content errorAfter => rfl

/-- Nothing is lost with pieces that set nothing. -/
theorem foldl_piecesRead {content : Bytes} {errorAfter : Option Nat} {before : BioDaemonConfig}
    (harmless : Harmless (.opened content errorAfter) before) :
    (piecesRead content errorAfter).foldl takeLine bioDaemonConfigDefaults = fromFile content := by
  obtain ⟨whole, read⟩ := harmless
  have all : (fgetsAll 511 [] content).foldl takeLine bioDaemonConfigDefaults = fromFile content :=
    load_of_whole whole bioDaemonConfigDefaults
  cases errorAfter with
  | none => exact all
  | some count =>
    rw [← all, piecesRead, foldl_takeLine, foldl_takeLine]
    conv_rhs => rw [← List.take_append_drop count (fgetsAll 511 [] content), List.filterMap_append, read, List.append_nil]

theorem reloaded_of_harmless (files : ConfigFiles) (d : LoadedConfig)
    (harmless : Harmless (files (reloadPath d)) d.settings) :
    Reloaded (files (reloadPath d)) d.settings (reloadDaemonConfig files d).settings := by
  rw [reloadDaemonConfig_eq]
  cases found : files (reloadPath d) with
  | cannotOpen =>
    rw [found] at harmless
    refine ⟨fun field needs => ?_, fun _ field other => ?_, nofun⟩
    · rw [read_adopt fitting_defaults, if_pos needs]
    · rw [read_adopt fitting_defaults, if_neg other, harmless field other]
  | opened content errorAfter =>
    rw [found] at harmless
    dsimp only
    rw [foldl_piecesRead harmless]
    have fitting : Fitting (fromFile content) := by
      rw [← foldl_piecesRead harmless, foldl_takeLine]
      exact fitting_defaults.putAll _
    refine ⟨fun field needs => ?_, nofun, fun other _ same field free => ?_⟩
    · rw [read_adopt fitting, if_pos needs]
    · cases same
      rw [read_adopt fitting, if_neg free]

/-- One reload after the other, each with the files as they are then. -/
def reloadRun (d : LoadedConfig) (reloads : List ConfigFiles) : LoadedConfig :=
    reloads.foldl (fun d files => reloadDaemonConfig files d) d

theorem reloadRun_concat (d : LoadedConfig) (front : List ConfigFiles) (files : ConfigFiles) :
    reloadRun d (front ++ [files]) = reloadDaemonConfig files (reloadRun d front) := by
  rw [reloadRun, List.foldl_append]
  rfl

/-- The path is the one the daemon started with. -/
theorem reloadRun_configFile (reloads : List ConfigFiles) : ∀ d, (reloadRun d reloads).configFile = d.configFile := by
  induction reloads with
  | nil => exact fun _ => rfl
  | cons files reloads ih =>
    intro d
    refine (ih _).trans ?_
    dsimp only
    rw [reloadDaemonConfig_eq]

theorem reloadPath_reloadRun (d : LoadedConfig) (reloads : List ConfigFiles) : reloadPath (reloadRun d reloads) =
    reloadPath d := by
  unfold reloadPath
  rw [reloadRun_configFile]

/-- What needs a restart waits for one, whatever the files are. -/
theorem read_reloadRun {field : ConfigField} (needs : field.needsRestart) (reloads : List ConfigFiles) :
    ∀ d, field.read (reloadRun d reloads).settings = field.read d.settings := by
  induction reloads with
  | nil => exact fun _ => rfl
  | cons files reloads ih =>
    intro d
    refine (ih _).trans ?_
    dsimp only
    rw [reloadDaemonConfig_eq]
    cases field <;> first | rfl | cases needs

/-- Every reload that is harmless does what it has to, and none touches what needs a restart. -/
theorem reloads_apply_the_file (d : LoadedConfig) (reloads : List ConfigFiles)
    (harmless : ∀ front files back, reloads = front ++ files :: back →
    Harmless (files (reloadPath d)) (reloadRun d front).settings) :
    (∀ front files back, reloads = front ++ files :: back →
      Reloaded (files (reloadPath d)) (reloadRun d front).settings (reloadRun d (front ++ [files])).settings) ∧
    (reloadRun d reloads).configFile = d.configFile ∧
    ∀ field : ConfigField, field.needsRestart → field.read (reloadRun d reloads).settings = field.read d.settings := by
  refine ⟨fun front files back shape => ?_, reloadRun_configFile reloads d, fun field needs => read_reloadRun needs reloads d⟩
  have step := reloaded_of_harmless files (reloadRun d front)
  rw [reloadPath_reloadRun] at step
  rw [reloadRun_concat]
  exact step (harmless front files back shape)

/-- The file of the configuration with one line. -/
def oneLine (text : String) : ConfigFiles := fun _ => .opened (literal text) none

theorem reloads_apply_the_file_once :
    (reloadRun loadedDefaults [oneLine "tpm_require = yes\n"]).settings.tpmRequire = true := by
  have single : linesOf [] (literal "tpm_require = yes\n") = [literal "tpm_require = yes\n"] := by decide +kernel
  have plain : Whole (literal "tpm_require = yes\n") := by
    unfold Whole
    rw [if_pos (by decide +kernel)]
    exact (plain_iff _).mp rfl
  have applied := (reloads_apply_the_file loadedDefaults [oneLine "tpm_require = yes\n"] (by
    intro front files back shape
    obtain ⟨rfl, same⟩ | ⟨_, rfl, more⟩ := List.cons_eq_append_iff.mp shape
    · cases same
      refine ⟨?_, True.intro⟩
      rw [single]
      exact List.forall_mem_singleton.mpr plain
    · exact absurd more (by simp))).1 [] _ [] rfl
  have loaded : (fromFile (literal "tpm_require = yes\n")).tpmRequire = true := by decide +kernel
  exact (applied.present _ _ rfl .tpmRequire (by decide)).trans loaded

/-- A file that is gone turns the requirement of a TPM off. -/
theorem missing_file_drops_the_requirement :
    let files : ConfigFiles := fun _ => .cannotOpen
    let running := startupConfig (oneLine "tpm_require = yes\n") hiyaConfigFile
    running.settings.tpmRequire = true ∧ (reloadRun running [files]).settings.tpmRequire = false ∧
      ¬ Reloaded (files (reloadPath running)) running.settings (reloadRun running [files]).settings := by
  have facts : (startupConfig (oneLine "tpm_require = yes\n") hiyaConfigFile).settings.tpmRequire = true ∧
      (reloadRun (startupConfig (oneLine "tpm_require = yes\n") hiyaConfigFile)
        [fun _ => .cannotOpen]).settings.tpmRequire = false := by
    decide +kernel
  refine ⟨facts.1, facts.2, fun reloaded => ?_⟩
  have same := reloaded.missing rfl .tpmRequire (by decide)
  change (reloadRun _ _).settings.tpmRequire = _ at same
  rw [facts.2] at same
  exact Bool.false_ne_true (same.trans facts.1)

end Hiya.Daemon.ConfigFile
