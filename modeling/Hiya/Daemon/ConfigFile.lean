import Hiya.Library.Text

/-! How the daemon reads its configuration file: `bio_daemon_config_load` and the defaults it
starts from. Sections are passed over, a setting has several names, and a later line that is
accepted wins. -/

namespace Hiya.Daemon.ConfigFile
open Library

inductive LogLevel
  | error
  | warning
  | info
  | debug
  | trace
  deriving DecidableEq

structure BioDaemonConfig where
  maxSessions : Int
  sessionMaxAgeSeconds : Int
  maxEnrollmentsPerUser : Int
  rateLimitMaxAttempts : Int
  rateLimitLockoutSeconds : Int
  rateLimitWindowSeconds : Int
  tpmEnabled : Bool
  tpmFallbackToPlaintext : Bool
  tpmRequire : Bool
  tpmPcrBinding : Bool
  tpmPcrIndex : Nat
  tpmPrimaryHandle : Nat
  tpmDevice : Bytes
  howdyBinary : Bytes
  vaultIdleTimeoutSeconds : Int
  stateDir : Bytes
  deviceDriver : Bytes
  logToJournal : Bool
  logLevel : LogLevel

def bioMaxSessions : Int := 64
def bioSessionMaxAge : Int := 300
def bioMaxEnrollmentsPerUser : Int := 10
def hiyaTpmPrimaryHandle : Nat := 0x81000100
def tpm2PersistentFirst : Nat := 0x81000000
def tpm2PersistentLast : Nat := 0x81FFFFFF

def bioDaemonConfigDefaults : BioDaemonConfig where
  maxSessions := bioMaxSessions
  sessionMaxAgeSeconds := bioSessionMaxAge
  maxEnrollmentsPerUser := bioMaxEnrollmentsPerUser
  rateLimitMaxAttempts := 5
  rateLimitLockoutSeconds := 30
  rateLimitWindowSeconds := 60
  tpmEnabled := true
  tpmFallbackToPlaintext := false
  tpmRequire := false
  tpmPcrBinding := false
  tpmPcrIndex := 7
  tpmPrimaryHandle := hiyaTpmPrimaryHandle
  tpmDevice := literal "/dev/tpmrm0"
  howdyBinary := literal "howdy"
  vaultIdleTimeoutSeconds := 1800
  stateDir := literal "/var/lib/hiya"
  deviceDriver := []
  logToJournal := true
  logLevel := .debug

def parseConfigBool (value : Bytes) : Option Bool :=
  if value = literal "1" ∨ sameLetters value (literal "true") ∨ sameLetters value (literal "yes") ∨
    sameLetters value (literal "on") then some true
  else if value = literal "0" ∨ sameLetters value (literal "false") ∨ sameLetters value (literal "no") ∨
    sameLetters value (literal "off") then
    some false
  else none

def parseConfigU32 (value : Bytes) : Option Nat :=
  let number := strtoul value
  if number.rest = value ∨ number.rest.dropWhile isBlank ≠ [] ∨ number.outOfRange ∨ number.value ≥ 2 ^ 32 then none
  else some number.value.toNat

def parseBetween (low high : Nat) (value : Bytes) : Option Nat :=
    (parseConfigU32 value).filter fun number => low ≤ number ∧ number ≤ high

def parseConfigLogLevel (value : Bytes) : Option LogLevel :=
  if sameLetters value (literal "error") then some .error
  else if sameLetters value (literal "warning") then some .warning
  else if sameLetters value (literal "info") then some .info
  else if sameLetters value (literal "debug") then some .debug
  else if sameLetters value (literal "trace") then some .trace
  else none

/-- A number between two bounds. Nobody asks whether there was a number at all, so that an
empty value is zero. -/
def parseLong (low high : Int) (value : Bytes) : Option Int :=
  let number := strtol value
  if number.rest.dropWhile isBlank = [] ∧ ¬ number.outOfRange ∧ low ≤ number.value ∧
    number.value ≤ high then some number.value else none

def parsePath (value : Bytes) : Option Bytes :=
  if value.head? ≠ some 47 ∨ containsText value (literal "..") then none else some value

inductive ConfigField
  | maxSessions
  | sessionMaxAgeSeconds
  | maxEnrollmentsPerUser
  | rateLimitMaxAttempts
  | rateLimitLockoutSeconds
  | rateLimitWindowSeconds
  | tpmEnabled
  | tpmFallbackToPlaintext
  | tpmRequire
  | tpmPcrBinding
  | tpmPcrIndex
  | tpmDevice
  | howdyBinary
  | tpmPrimaryHandle
  | stateDir
  | deviceDriver
  | vaultIdleTimeoutSeconds
  | logToJournal
  | logLevel
  deriving DecidableEq

/-- The order in which a key is compared with the names. -/
def configFields : List ConfigField :=
  [.maxSessions, .sessionMaxAgeSeconds, .maxEnrollmentsPerUser, .rateLimitMaxAttempts, .rateLimitLockoutSeconds,
    .rateLimitWindowSeconds, .tpmEnabled,
    .tpmFallbackToPlaintext, .tpmRequire, .tpmPcrBinding, .tpmPcrIndex, .tpmDevice, .howdyBinary, .tpmPrimaryHandle,
      .stateDir, .deviceDriver,
    .vaultIdleTimeoutSeconds, .logToJournal, .logLevel]

namespace ConfigField

def Value : ConfigField → Type
  | maxSessions | sessionMaxAgeSeconds | maxEnrollmentsPerUser | rateLimitMaxAttempts | rateLimitLockoutSeconds | rateLimitWindowSeconds
  | vaultIdleTimeoutSeconds => Int
  | tpmEnabled | tpmFallbackToPlaintext | tpmRequire | tpmPcrBinding | logToJournal => Bool
  | tpmPcrIndex | tpmPrimaryHandle => Nat
  | tpmDevice | howdyBinary | stateDir | deviceDriver => Bytes
  | logLevel => LogLevel

instance : (field : ConfigField) → DecidableEq field.Value
  | maxSessions | sessionMaxAgeSeconds | maxEnrollmentsPerUser | rateLimitMaxAttempts | rateLimitLockoutSeconds | rateLimitWindowSeconds
  | vaultIdleTimeoutSeconds => inferInstanceAs (DecidableEq Int)
  | tpmEnabled | tpmFallbackToPlaintext | tpmRequire | tpmPcrBinding | logToJournal => inferInstanceAs (DecidableEq Bool)
  | tpmPcrIndex | tpmPrimaryHandle => inferInstanceAs (DecidableEq Nat)
  | tpmDevice | howdyBinary | stateDir | deviceDriver => inferInstanceAs (DecidableEq Bytes)
  | logLevel => inferInstanceAs (DecidableEq LogLevel)

def names : ConfigField → List Bytes
  | maxSessions => [literal "max_sessions"]
  | sessionMaxAgeSeconds => [literal "session_max_age", literal "session_timeout"]
  | maxEnrollmentsPerUser => [literal "max_enrollments_per_user", literal "max_enrollments", literal "max_enroll_attempts"]
  | rateLimitMaxAttempts => [literal "rate_limit_max_attempts"]
  | rateLimitLockoutSeconds => [literal "rate_limit_lockout_seconds", literal "rate_limit_lockout"]
  | rateLimitWindowSeconds => [literal "rate_limit_window_seconds", literal "rate_limit_window"]
  | tpmEnabled => [literal "tpm_enabled"]
  | tpmFallbackToPlaintext => [literal "tpm_fallback_to_plaintext"]
  | tpmRequire => [literal "tpm_require", literal "require_tpm"]
  | tpmPcrBinding => [literal "tpm_pcr_binding"]
  | tpmPcrIndex => [literal "tpm_pcr_index"]
  | tpmDevice => [literal "tpm_device", literal "device"]
  | howdyBinary => [literal "howdy_binary", literal "face_howdy_binary"]
  | tpmPrimaryHandle => [literal "tpm_primary_handle", literal "primary_handle"]
  | stateDir => [literal "state_dir"]
  | deviceDriver => [literal "device_driver"]
  | vaultIdleTimeoutSeconds => [literal "vault_idle_timeout", literal "vault_idle_timeout_seconds"]
  | logToJournal => [literal "log_to_journal"]
  | logLevel => [literal "log_level"]

def hasName (field : ConfigField) (key : Bytes) : Bool := field.names.any fun name => name = key

/-- The value a text stands for, if the daemon accepts it. -/
def parse : (field : ConfigField) → Bytes → Option field.Value
  | maxSessions => parseLong 1 bioMaxSessions
  | sessionMaxAgeSeconds => parseLong 10 86400
  | maxEnrollmentsPerUser => parseLong 1 100
  | rateLimitMaxAttempts => parseLong 2 100
  | rateLimitLockoutSeconds => parseLong 1 3600
  | rateLimitWindowSeconds => parseLong 1 3600
  | tpmEnabled | tpmFallbackToPlaintext | tpmRequire | tpmPcrBinding | logToJournal => parseConfigBool
  | tpmPcrIndex => parseBetween 0 23
  | tpmDevice | stateDir => parsePath
  | howdyBinary => fun text => if containsText text (literal "..") then none else some text
  | tpmPrimaryHandle => parseBetween tpm2PersistentFirst tpm2PersistentLast
  | deviceDriver => some
  | vaultIdleTimeoutSeconds => parseLong 0 86400
  | logLevel => parseConfigLogLevel

def read : (field : ConfigField) → BioDaemonConfig → field.Value
  | maxSessions, config => config.maxSessions
  | sessionMaxAgeSeconds, config => config.sessionMaxAgeSeconds
  | maxEnrollmentsPerUser, config => config.maxEnrollmentsPerUser
  | rateLimitMaxAttempts, config => config.rateLimitMaxAttempts
  | rateLimitLockoutSeconds, config => config.rateLimitLockoutSeconds
  | rateLimitWindowSeconds, config => config.rateLimitWindowSeconds
  | tpmEnabled, config => config.tpmEnabled
  | tpmFallbackToPlaintext, config => config.tpmFallbackToPlaintext
  | tpmRequire, config => config.tpmRequire
  | tpmPcrBinding, config => config.tpmPcrBinding
  | tpmPcrIndex, config => config.tpmPcrIndex
  | tpmDevice, config => config.tpmDevice
  | howdyBinary, config => config.howdyBinary
  | tpmPrimaryHandle, config => config.tpmPrimaryHandle
  | stateDir, config => config.stateDir
  | deviceDriver, config => config.deviceDriver
  | vaultIdleTimeoutSeconds, config => config.vaultIdleTimeoutSeconds
  | logToJournal, config => config.logToJournal
  | logLevel, config => config.logLevel

/-- What of a value fits into its field: a text is cut to the size of its buffer. -/
def stored : (field : ConfigField) → field.Value → field.Value
  | tpmDevice, text | deviceDriver, text => List.take 63 text
  | howdyBinary, text | stateDir, text => List.take 255 text
  | _, value => value

def write (field : ConfigField) (value : field.Value) (config : BioDaemonConfig) : BioDaemonConfig :=
  match field, field.stored value with
  | maxSessions, value => { config with maxSessions := value }
  | sessionMaxAgeSeconds, value => { config with sessionMaxAgeSeconds := value }
  | maxEnrollmentsPerUser, value => { config with maxEnrollmentsPerUser := value }
  | rateLimitMaxAttempts, value => { config with rateLimitMaxAttempts := value }
  | rateLimitLockoutSeconds, value => { config with rateLimitLockoutSeconds := value }
  | rateLimitWindowSeconds, value => { config with rateLimitWindowSeconds := value }
  | tpmEnabled, value => { config with tpmEnabled := value }
  | tpmFallbackToPlaintext, value => { config with tpmFallbackToPlaintext := value }
  | tpmRequire, value => { config with tpmRequire := value }
  | tpmPcrBinding, value => { config with tpmPcrBinding := value }
  | tpmPcrIndex, value => { config with tpmPcrIndex := value }
  | tpmDevice, value => { config with tpmDevice := value }
  | howdyBinary, value => { config with howdyBinary := value }
  | tpmPrimaryHandle, value => { config with tpmPrimaryHandle := value }
  | stateDir, value => { config with stateDir := value }
  | deviceDriver, value => { config with deviceDriver := value }
  | vaultIdleTimeoutSeconds, value => { config with vaultIdleTimeoutSeconds := value }
  | logToJournal, value => { config with logToJournal := value }
  | logLevel, value => { config with logLevel := value }

end ConfigField

/-- The key and the value on a line as `fgets` returned it. Only the start of the value is
trimmed. -/
def configLine (line : Bytes) : Option (Bytes × Bytes) :=
  let text := ((cString line).rdropWhile isLineEnd).dropWhile isBlank
  match text with
  | [] => none
  | first :: _ =>
    if first = hashSign ∨ first = semicolon then none
    else if first = bracketOpen then none
    else if equalSign ∈ text then
      some (trimEnd ((text.takeWhile (· ≠ equalSign)).take 127), ((text.dropWhile (· ≠ equalSign)).drop 1).dropWhile isBlank)
    else none

def matchKey (key value : Bytes) (config : BioDaemonConfig) : BioDaemonConfig :=
  match configFields.find? (·.hasName key) with
  | none => config
  | some field =>
    match field.parse value with
    | none => config
    | some value => field.write value config

def takeLine (config : BioDaemonConfig) (line : Bytes) : BioDaemonConfig :=
  match configLine line with
  | none => config
  | some (key, value) => matchKey key value config

/-- A file that is not there is like an empty one. -/
def bioDaemonConfigLoad (file : Bytes) (config : BioDaemonConfig) : BioDaemonConfig :=
    (fgetsAll 511 [] file).foldl takeLine config

def hiyaConfigFile : Bytes := literal "/etc/hiya/hiya.conf"

/-- What there is at a path when it is read. `fgets` may come upon an error after some pieces, and
says no more about it than about the end of the file. -/
inductive ConfigFound
  | cannotOpen
  | opened (content : Bytes) (errorAfter : Option Nat)

abbrev ConfigFiles := Bytes → ConfigFound

/-- The settings, and the file they are from. -/
structure LoadedConfig where
  settings : BioDaemonConfig
  configFile : Bytes

def loadedDefaults : LoadedConfig := ⟨bioDaemonConfigDefaults, hiyaConfigFile⟩

inductive LoadCode
  | ok
  | invalidParam
  deriving DecidableEq

def piecesRead (content : Bytes) (errorAfter : Option Nat) : List Bytes :=
  match errorAfter with
  | none => fgetsAll 511 [] content
  | some count => (fgetsAll 511 [] content).take count

/-- A file that cannot be opened is not fatal. -/
def loadConfig (path : Bytes) (found : ConfigFound) (config : LoadedConfig) : LoadCode × LoadedConfig :=
  match found with
  | .cannotOpen => (.ok, config)
  | .opened content errorAfter =>
    (.ok, { settings := (piecesRead content errorAfter).foldl takeLine config.settings, configFile := path.take 255 })

def startupConfig (files : ConfigFiles) (path : Bytes) : LoadedConfig := (loadConfig path (files path) loadedDefaults).2

def reloadPath (d : LoadedConfig) : Bytes := if d.configFile = [] then hiyaConfigFile else d.configFile

/-- The settings that can change while the daemon runs. -/
def adopt (next settings : BioDaemonConfig) : BioDaemonConfig :=
  { settings with
    maxSessions := next.maxSessions
    sessionMaxAgeSeconds := next.sessionMaxAgeSeconds
    maxEnrollmentsPerUser := next.maxEnrollmentsPerUser
    rateLimitMaxAttempts := next.rateLimitMaxAttempts
    rateLimitLockoutSeconds := next.rateLimitLockoutSeconds
    rateLimitWindowSeconds := next.rateLimitWindowSeconds
    tpmFallbackToPlaintext := next.tpmFallbackToPlaintext
    tpmRequire := next.tpmRequire
    tpmPcrBinding := next.tpmPcrBinding
    tpmPcrIndex := next.tpmPcrIndex
    howdyBinary := next.howdyBinary.take 255
    vaultIdleTimeoutSeconds := next.vaultIdleTimeoutSeconds
    logToJournal := next.logToJournal
    logLevel := next.logLevel }

def reloadDaemonConfig (files : ConfigFiles) (d : LoadedConfig) : LoadedConfig :=
  match loadConfig (reloadPath d) (files (reloadPath d)) loadedDefaults with
  | (.ok, next) => { d with settings := adopt next.settings d.settings }
  | (.invalidParam, _) => d

end Hiya.Daemon.ConfigFile
