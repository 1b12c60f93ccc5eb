import Hiya.Library.Text

/-! The configuration tool, `hiya_config.c`: how it reads the file into a table of bounded
size, looks up and sets an entry, and writes the table back section by section. -/

namespace Hiya.Tools
open Library

/-- An argument of the program: a text without zero bytes. -/
structure Arg where
  bytes : Bytes
  clean : 0 ∉ bytes

structure ConfigEntry where
  key : Bytes
  default : Bytes
  description : Bytes

def configEntry (key default description : String) : ConfigEntry := ⟨literal key, literal default, literal description⟩

def configDefaults : List ConfigEntry :=
  [configEntry "general.log_level" "info" "Log level: error, warning, info, debug, trace",
    configEntry "general.max_sessions" "64" "Maximum concurrent sessions",
    configEntry "general.session_timeout" "300" "Session timeout in seconds",
    configEntry "general.state_dir" "/var/lib/hiya" "Directory for persistent state",
    configEntry "general.vault_idle_timeout" "1800" "Vault auto-lock timeout in seconds (0 disables)",
    configEntry "fingerprint.max_enrollments" "10" "Maximum enrolled fingerprints per user",
    configEntry "fingerprint.rate_limit_max_attempts" "5" "Failed verification attempts before lockout",
    configEntry "fingerprint.rate_limit_lockout" "30" "Base lockout duration in seconds",
    configEntry "fingerprint.rate_limit_window" "60" "Rate-limit sliding window in seconds",
    configEntry "tpm.tpm_enabled" "true" "Enable TPM 2.0 integration",
    configEntry "tpm.require_tpm" "false" "Require TPM and deny plaintext fallback",
    configEntry "tpm.tpm_fallback_to_plaintext" "false" "Allow software fallback if TPM unseal fails",
    configEntry "tpm.tpm_pcr_binding" "false" "Bind TPM template unseal to PCR policy",
    configEntry "tpm.tpm_pcr_index" "7" "PCR index for TPM binding",
    configEntry "tpm.device" "/dev/tpmrm0" "TPM device path",
    configEntry "tpm.primary_handle" "0x81000100" "Persistent TPM primary handle",
    configEntry "fido2.enabled" "true" "Enable FIDO2/CTAP2 service",
    configEntry "fido2.storage_path" "/var/lib/hiya/fido2" "FIDO2 credential storage path",
    configEntry "fido2.max_credentials" "64" "Maximum resident credentials",
    configEntry "pam.verify_timeout" "30" "PAM verification timeout in seconds",
    configEntry "pam.fallback" "true" "Allow password fallback when biometric path fails"]

/-- Other names under which keys are known. -/
def cliKeys : List (Bytes × Bytes) :=
  [(literal "tpm.enabled", literal "tpm.tpm_enabled"),
    (literal "tpm.require", literal "tpm.require_tpm"),
    (literal "tpm.fallback", literal "tpm.tpm_fallback_to_plaintext"),
    (literal "tpm.pcr_binding", literal "tpm.tpm_pcr_binding"),
    (literal "tpm.pcr_index", literal "tpm.tpm_pcr_index"),
    (literal "fingerprint.timeout", literal "general.session_timeout"),
    (literal "security.rate_limit", literal "fingerprint.rate_limit_max_attempts"),
    (literal "security.lockout_time", literal "fingerprint.rate_limit_lockout")]

def normalizeCliKey (key : Bytes) : Bytes := (cliKeys.lookup key).getD key

def maxConfigEntries : Nat := 64

/-- One entry of the table: a key of at most 127 bytes and a value of at most 255. -/
structure KvPair where
  key : Bytes
  value : Bytes
  deriving DecidableEq

inductive Line
  | other
  | sectionHeader (name : Bytes)
  | pair (key value : Bytes)
  deriving DecidableEq

/-- A line as `fgets` returned it. -/
def readLine (line : Bytes) : Line :=
  let text := ((cString line).rdropWhile isLineEnd).dropWhile isBlank
  match text with
  | [] => .other
  | first :: rest =>
    if first = hashSign ∨ first = semicolon then .other
    else if first = bracketOpen then
      if bracketClose ∈ text then .sectionHeader ((rest.takeWhile (· ≠ bracketClose)).take 63) else .other
    else if equalSign ∈ text then
      let key := trimEnd (text.takeWhile (· ≠ equalSign))
      let value := trimmed ((text.dropWhile (· ≠ equalSign)).drop 1)
      if key = [] ∨ value = [] then .other else .pair key value
    else .other

def fullKey (sectionName key : Bytes) : Bytes :=
  if sectionName ≠ [] then (sectionName ++ dot :: key).take 127 else key.take 127

structure Loading where
  sectionName : Bytes
  entries : List KvPair

/-- A pair that finds the table full ends the loop; nothing that follows is looked at. -/
def Loading.next (loading : Loading) (line : Bytes) : Loading :=
  match readLine line with
  | .other => loading
  | .sectionHeader name => { loading with sectionName := name }
  | .pair key value =>
    if loading.entries.length ≥ maxConfigEntries then loading
    else { loading with entries := loading.entries ++ [⟨fullKey loading.sectionName key, value.take 255⟩] }

/-- A file that is not there is like an empty one. -/
def configLoad (file : Bytes) : List KvPair := ((fgetsAll 511 [] file).foldl Loading.next ⟨[], []⟩).entries

def configFind (table : List KvPair) (key : Bytes) : Option Bytes := (table.find? (·.key = key)).map KvPair.value

def configDefault (key : Bytes) : Option Bytes := (configDefaults.find? (·.key = key)).map ConfigEntry.default

def configGet (table : List KvPair) (key : Bytes) : Option Bytes := configFind table key <|> configDefault key

def replaceValue (key value : Bytes) : List KvPair → List KvPair
  | [] => []
  | pair :: rest => if pair.key = key then { pair with value } :: rest else pair :: replaceValue key value rest

/-- The first entry of the key is changed, or a new one is put at the end; a table that is
full stays as it is, which nobody asks about. -/
def configSet (table : List KvPair) (key value : Bytes) : List KvPair :=
  if ∃ pair ∈ table, pair.key = key then replaceValue key (value.take 255) table
  else if table.length ≥ maxConfigEntries then table
  else table ++ [⟨key.take 127, value.take 255⟩]

def sectionOf (key : Bytes) : Bytes := key.takeWhile (· ≠ dot)

def restOf (key : Bytes) : Bytes := (key.dropWhile (· ≠ dot)).drop 1

/-- The sections, each once, as many as there is room for. -/
def collectSections (table : List KvPair) : List Bytes :=
  (table.filter fun pair => dot ∈ pair.key).foldl (fun sections pair =>
    let name := (sectionOf pair.key).take 63
    if (∀ old ∈ sections, old ≠ name) ∧ sections.length < 32 then sections ++ [name] else sections) []

def describe (key : Bytes) : List Bytes :=
  match configDefaults.find? (·.key = key) with
  | some entry => [literal "# " ++ entry.description]
  | none => []

def pairLines (pair : KvPair) : List Bytes := describe pair.key ++ [restOf pair.key ++ literal " = " ++ pair.value]

def sectionLines (table : List KvPair) (name : Bytes) : List Bytes :=
  [bracketOpen :: (name ++ [bracketClose])] ++
    (table.filter fun pair => dot ∈ pair.key ∧ sectionOf pair.key = name).flatMap pairLines ++ [[]]

def headerLines : List Bytes :=
  [literal "# Hiya Configuration", literal "# Generated by hiya-config",
    literal "# See hiya-config show --defaults for all options.", []]

def configSave (table : List KvPair) : Bytes :=
  (headerLines ++ (collectSections table).flatMap (sectionLines table)).flatMap (· ++ [newline])

def cmdGet (file : Bytes) (key : Arg) : Option Bytes := configGet (configLoad file) (normalizeCliKey key.bytes)

/-- The file after a value has been set, or nothing if the key or the value is refused. -/
def cmdSet (file : Bytes) (key value : Arg) : Option Bytes :=
  let name := normalizeCliKey key.bytes
  if ¬ ∃ entry ∈ configDefaults, entry.key = name then none
  else if newline ∈ value.bytes ∨ carriageReturn ∈ value.bytes then none
  else some (configSave (configSet (configLoad file) name value.bytes))

end Hiya.Tools
