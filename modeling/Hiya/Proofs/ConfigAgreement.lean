import Hiya.Daemon.ConfigFile
import Hiya.Proofs.ConfigSet

/-! The configuration tool and the daemon read one file. The tool reports the first pair of a
full key among those it has room for; the daemon obeys the last line it accepts under any
name of the setting, in whatever section. What the tool reports is in force exactly if these
two say the same. -/

namespace Hiya.Tools
open Library Daemon.ConfigFile

section
variable {α β σ : Type}

theorem foldl_last_choice {step : σ → α → σ} {observe : σ → β} {choose : α → Option β}
    (chosen : ∀ state item, observe (step state item) = (choose item).getD (observe state)) (items : List α) (state : σ) :
    observe (items.foldl step state) = (items.filterMap choose).getLast?.getD (observe state) := by
  induction items generalizing state with
  | nil => rfl
  | cons item items ih =>
    rw [List.foldl_cons, ih, chosen]
    cases choice : choose item with
    | none => rw [List.filterMap_cons_none choice, Option.getD_none]
    | some value =>
      rw [List.filterMap_cons_some choice, List.getLast?_cons]
      rfl

end

theorem read_write (field : ConfigField) (value : field.Value) (config : BioDaemonConfig) :
    field.read (field.write value config) = field.stored value := by
  cases field <;> rfl

theorem read_write_of_ne {field other : ConfigField} (different : other ≠ field) (value : field.Value)
    (config : BioDaemonConfig) :
    other.read (field.write value config) = other.read config := by
  cases field <;> cases other <;> first | rfl | exact absurd rfl different

theorem hasName_iff {field : ConfigField} {key : Bytes} : field.hasName key = true ↔ key ∈ field.names := by
  unfold ConfigField.hasName
  rw [List.any_eq_true]
  constructor
  · intro ⟨name, inside, same⟩
    rwa [← of_decide_eq_true same]
  · intro inside
    exact ⟨key, inside, decide_eq_true rfl⟩

theorem find?_configFields {field : ConfigField} {name : Bytes} (named : field.hasName name) :
    configFields.find? (·.hasName name) = some field := by
  have all : ∀ field ∈ configFields, ∀ name ∈ field.names, configFields.find? (·.hasName name) = some field :=
    by decide +kernel
  have listed : field ∈ configFields := by cases field <;> decide
  exact all field listed name (hasName_iff.mp named)

theorem read_matchKey (field : ConfigField) (key value : Bytes) (config : BioDaemonConfig) :
    field.read (matchKey key value config) =
      ((if field.hasName key then (field.parse value).map field.stored else none).getD (field.read config)) := by
  unfold matchKey
  by_cases named : field.hasName key
  · rw [find?_configFields named, if_pos named]
    dsimp only
    cases field.parse value with
    | none => rfl
    | some value => exact read_write field value config
  · rw [if_neg named, Option.getD_none]
    cases found : configFields.find? (·.hasName key) with
    | none => rfl
    | some other =>
      have different : field ≠ other := by
        rintro rfl
        have inside := List.find?_some found
        exact named inside
      dsimp only
      cases other.parse value with
      | none => rfl
      | some value => exact read_write_of_ne different value config

def daemonTexts (file : Bytes) (field : ConfigField) : List Bytes :=
  (((fgetsAll 511 [] file).filterMap configLine).filter fun pair => field.hasName pair.1).map Prod.snd

def daemonSays (file : Bytes) (field : ConfigField) : Option field.Value :=
    ((daemonTexts file field).filterMap field.parse).getLast?

theorem read_bioDaemonConfigLoad (file : Bytes) (field : ConfigField) (config : BioDaemonConfig) :
    field.read (bioDaemonConfigLoad file config) = ((daemonSays file field).map field.stored).getD (field.read config) := by
  have chosen (config : BioDaemonConfig) (line : Bytes) :
      field.read (takeLine config line) =
        (((configLine line).bind fun pair => if field.hasName pair.1 then field.parse pair.2
          else none).map field.stored).getD (field.read config) := by
    unfold takeLine
    cases configLine line with
    | none => rfl
    | some pair =>
      dsimp only
      rw [read_matchKey, Option.bind_some]
      by_cases named : field.hasName pair.1
      · rw [if_pos named, if_pos named]
      · rw [if_neg named, if_neg named]
        rfl
  have texts : ((fgetsAll 511 [] file).filterMap fun line =>
      ((configLine line).bind fun pair => if field.hasName pair.1 then field.parse pair.2 else none).map field.stored) =
      ((daemonTexts file field).filterMap field.parse).map field.stored := by
    unfold daemonTexts
    rw [List.filterMap_map, List.filterMap_filter, List.filterMap_filterMap, List.map_filterMap]
    simp only [Function.comp_apply]
  unfold bioDaemonConfigLoad daemonSays
  rw [foldl_last_choice chosen, texts, List.getLast?_map]

/-- A setting known to both: one of the tool's whose name after the section is one of the
daemon's. -/
structure SharedSetting where
  entry : ConfigEntry
  known : entry ∈ configDefaults
  field : ConfigField
  named : restOf entry.key ∈ field.names

def toolSays (file key : Bytes) : Option Bytes :=
    (((settings file).take maxConfigEntries).find? (·.key = key)).map KvPair.value

/-- If the daemon accepts what the tool reports, it is in force. -/
def InForce (file : Bytes) (setting : SharedSetting) : Prop :=
  ∀ (key : Arg) (text : Bytes) (value : setting.field.Value), normalizeCliKey key.bytes = setting.entry.key →
    cmdGet file key = some text →
    setting.field.parse text = some value → setting.field.read (bioDaemonConfigLoad file bioDaemonConfigDefaults) = value

/-- The first line for the tool and the last for the daemon say the same, as far as there
are any. The defaults differ for the level of the log. -/
def Agree (file : Bytes) (setting : SharedSetting) : Prop :=
  match toolSays file setting.entry.key, daemonSays file setting.field with
  | none, none => setting.field ≠ .logLevel
  | none, some value => setting.field.parse setting.entry.default = some (setting.field.stored value)
  | some text, none =>
    setting.field.parse text = none ∨ setting.field.parse text = some (setting.field.read bioDaemonConfigDefaults)
  | some text, some value => setting.field.parse text = none ∨ setting.field.parse text = some (setting.field.stored value)

/-- The tool's names are no other names of something, and its defaults are the daemon's but for one. -/
theorem normalizeCliKey_entry {entry : ConfigEntry} (known : entry ∈ configDefaults) :
    normalizeCliKey entry.key = entry.key ∧ 0 ∉ entry.key := by
  have all : ∀ entry ∈ configDefaults, normalizeCliKey entry.key = entry.key ∧ 0 ∉ entry.key := by decide +kernel
  exact all entry known

theorem parse_default (setting : SharedSetting) : ∃ value, setting.field.parse setting.entry.default = some value ∧
    (setting.field.read bioDaemonConfigDefaults = value ↔ setting.field ≠ .logLevel) := by
  have all : ∀ entry ∈ configDefaults, ∀ field ∈ configFields, restOf entry.key ∈ field.names →
    (field.parse entry.default).isSome ∧
      (field.parse entry.default = some (field.read bioDaemonConfigDefaults) ↔ field ≠ .logLevel) := by decide +kernel
  have listed : setting.field ∈ configFields := by cases setting.field <;> decide
  obtain ⟨some, same⟩ := all setting.entry setting.known setting.field listed setting.named
  obtain ⟨value, parsed⟩ := Option.isSome_iff_exists.mp some
  rw [parsed, Option.some_inj, eq_comm] at same
  exact ⟨value, parsed, same⟩

theorem configGet_entry (file : Bytes) {entry : ConfigEntry} (known : entry ∈ configDefaults) :
    configGet (configLoad file) entry.key = some ((toolSays file entry.key).getD entry.default) := by
  have default : configDefault entry.key = some entry.default := by
    have all : ∀ entry ∈ configDefaults, configDefault entry.key = some entry.default := by decide +kernel
    exact all entry known
  unfold configGet configFind
  rw [configLoad_eq, default]
  change (toolSays file entry.key <|> some entry.default) = _
  cases toolSays file entry.key with
  | none => rfl
  | some text => rfl

theorem inForce_iff (file : Bytes) (setting : SharedSetting) : InForce file setting ↔ Agree file setting := by
  obtain ⟨plain, clean⟩ := normalizeCliKey_entry setting.known
  have given := configGet_entry file setting.known
  have loaded := read_bioDaemonConfigLoad file setting.field bioDaemonConfigDefaults
  have single : InForce file setting ↔ ∀ value,
    setting.field.parse ((toolSays file setting.entry.key).getD setting.entry.default) = some value →
      ((daemonSays file setting.field).map setting.field.stored).getD (setting.field.read bioDaemonConfigDefaults) =
        value := by
    unfold InForce
    rw [loaded]
    constructor
    · intro every value parsed
      exact every ⟨setting.entry.key, clean⟩ _ value plain ((congrArg _ plain).trans given) parsed
    · intro one key text value name reported parsed
      have same : text = (toolSays file setting.entry.key).getD setting.entry.default := by
        unfold cmdGet at reported
        rw [name, given] at reported
        exact (Option.some.inj reported).symm
      exact one value (same ▸ parsed)
  have either {parsed : Option setting.field.Value} {actual : setting.field.Value} :
      (∀ value, parsed = some value → actual = value) ↔ parsed = none ∨ parsed = some actual := by
    cases parsed with
    | none => simp
    | some value => simp [eq_comm]
  obtain ⟨value, parsed, same⟩ := parse_default setting
  rw [single]
  unfold Agree
  cases toolSays file setting.entry.key with
  | none =>
    rw [Option.getD_none, either, parsed, or_iff_right (Option.some_ne_none _)]
    cases daemonSays file setting.field with
    | none => exact (Option.some_inj.trans eq_comm).trans same
    | some found => rfl
  | some text =>
    rw [Option.getD_some, either]
    cases daemonSays file setting.field with
    | none => rfl
    | some found => rfl

def scanLine (line : Bytes) : Option (Bytes × Bytes) :=
  let text := ((cString line).rdropWhile isLineEnd).dropWhile isBlank
  match text with
  | [] => none
  | first :: _ =>
    if first = hashSign ∨ first = semicolon ∨ first = bracketOpen then none
    else if equalSign ∈ text then some (text.takeWhile (· ≠ equalSign), (text.dropWhile (· ≠ equalSign)).drop 1)
    else none

theorem configLine_eq (line : Bytes) :
    configLine line = (scanLine line).map fun parts => (trimEnd (parts.1.take 127), parts.2.dropWhile isBlank) := by
  unfold configLine scanLine
  generalize ((cString line).rdropWhile isLineEnd).dropWhile isBlank = text
  cases text with
  | nil => rfl
  | cons first rest =>
    dsimp only
    by_cases comment : first = hashSign ∨ first = semicolon
    · rw [if_pos comment, if_pos (comment.imp_right .inl)]
      rfl
    · rw [if_neg comment]
      by_cases header : first = bracketOpen
      · rw [if_pos header, if_pos (.inr (.inr header))]
        rfl
      · have neither : ¬ (first = hashSign ∨ first = semicolon ∨ first = bracketOpen) :=
          fun some => some.elim (fun mark => comment (.inl mark)) fun rest => rest.elim
            (fun mark => comment (.inr mark)) header
        rw [if_neg header, if_neg neither]
        split
        · rfl
        · rfl

structure Placed where
  sectionName : Bytes
  front : Bytes
  back : Bytes

/-- The key the daemon sees. -/
def Placed.key (placed : Placed) : Bytes := trimEnd (placed.front.take 127)

/-- The text the daemon sees. -/
def Placed.text (placed : Placed) : Bytes := placed.back.dropWhile isBlank

/-- The pair the tool sees. -/
def Placed.pair (placed : Placed) : Option KvPair :=
  if trimEnd placed.front = [] ∨ trimmed placed.back = [] then none
  else some ⟨fullKey placed.sectionName (trimEnd placed.front), (trimmed placed.back).take 255⟩

def placedOf : Bytes → List Bytes → List Placed
  | _, [] => []
  | name, line :: lines =>
    match readLine line with
    | .sectionHeader other => placedOf other lines
    | _ =>
      match scanLine line with
      | none => placedOf name lines
      | some (front, back) => ⟨name, front, back⟩ :: placedOf name lines

def placedIn (file : Bytes) : List Placed := placedOf [] (fgetsAll 511 [] file)

/-- What the tool makes of a line, by what is on it. -/
theorem readLine_cases (line : Bytes) :
    (∃ name, readLine line = .sectionHeader name ∧ scanLine line = none) ∨ (readLine line = .other ∧ scanLine line = none) ∨
    ∃ front back, scanLine line = some (front, back) ∧
      readLine line = if trimEnd front = [] ∨ trimmed back = [] then .other else .pair (trimEnd front) (trimmed back) := by
  unfold readLine scanLine
  generalize ((cString line).rdropWhile isLineEnd).dropWhile isBlank = text
  cases text with
  | nil => exact .inr (.inl ⟨rfl, rfl⟩)
  | cons first rest =>
    dsimp only
    by_cases comment : first = hashSign ∨ first = semicolon
    · rw [if_pos comment, if_pos (comment.imp_right .inl)]
      exact .inr (.inl ⟨rfl, rfl⟩)
    · rw [if_neg comment]
      by_cases header : first = bracketOpen
      · have special : first = hashSign ∨ first = semicolon ∨ first = bracketOpen := .inr (.inr header)
        rw [if_pos header, if_pos special]
        split
        · exact .inl ⟨_, rfl, rfl⟩
        · exact .inr (.inl ⟨rfl, rfl⟩)
      · have neither : ¬ (first = hashSign ∨ first = semicolon ∨ first = bracketOpen) :=
          fun some => some.elim (fun mark => comment (.inl mark)) fun rest => rest.elim
            (fun mark => comment (.inr mark)) header
        rw [if_neg header, if_neg neither]
        by_cases sign : equalSign ∈ first :: rest
        · rw [if_pos sign, if_pos sign]
          exact .inr (.inr ⟨_, _, rfl, rfl⟩)
        · rw [if_neg sign, if_neg sign]
          exact .inr (.inl ⟨rfl, rfl⟩)

theorem settingsOf_eq (lines : List Bytes) (name : Bytes) :
    settingsOf name lines = (placedOf name lines).filterMap Placed.pair := by
  induction lines generalizing name with
  | nil => rfl
  | cons line lines ih =>
    rw [settingsOf, placedOf]
    obtain ⟨other, header, _⟩ | ⟨nothing, none⟩ | ⟨front, back, scanned, read⟩ := readLine_cases line
    · rw [header]
      exact ih other
    · rw [nothing, none]
      exact ih name
    · rw [read, scanned]
      by_cases lost : trimEnd front = [] ∨ trimmed back = []
      · have missing : Placed.pair ⟨name, front, back⟩ = none := if_pos lost
        rw [if_pos lost]
        dsimp only
        rw [List.filterMap_cons_none missing]
        exact ih name
      · have found : Placed.pair ⟨name, front, back⟩ = some ⟨fullKey name (trimEnd front), (trimmed back).take 255⟩ :=
          if_neg lost
        rw [if_neg lost]
        dsimp only
        rw [List.filterMap_cons_some found, ih name]

theorem configLines_eq (lines : List Bytes) (name : Bytes) :
    lines.filterMap configLine = (placedOf name lines).map fun placed => (placed.key, placed.text) := by
  induction lines generalizing name with
  | nil => rfl
  | cons line lines ih =>
    have parts := configLine_eq line
    rw [placedOf]
    obtain ⟨other, header, none⟩ | ⟨nothing, none⟩ | ⟨front, back, scanned, read⟩ := readLine_cases line
    · rw [none] at parts
      rw [header, List.filterMap_cons_none parts]
      exact ih other
    · rw [none] at parts
      rw [nothing, none, List.filterMap_cons_none parts]
      exact ih name
    · rw [scanned] at parts
      have other : ∀ name, readLine line ≠ .sectionHeader name := by
        intro name
        rw [read]
        split
        · exact fun same => by cases same
        · exact fun same => by cases same
      rw [List.filterMap_cons_some parts, scanned]
      split
      next header => exact absurd header (other _)
      · rw [List.map_cons, ← ih name]
        rfl

/-- One line is for the setting, in the tool's section and under the tool's name, and the
value on it needs no trimming and fits. -/
structure SingleLine (file : Bytes) (setting : SharedSetting) (line : Placed) : Prop where
  here : line.sectionName = sectionOf setting.entry.key
  name : trimEnd line.front = restOf setting.entry.key
  plain : PlainValue line.text
  fits : ∀ value, setting.field.parse line.text = some value → setting.field.stored value = value
  place : ∃ before after, placedIn file = before ++ line :: after ∧ before.length < maxConfigEntries ∧
    (∀ other ∈ before, ∀ pair, other.pair = some pair → pair.key ≠ setting.entry.key) ∧
      ∀ other ∈ before ++ after, other.key ∉ setting.field.names

theorem daemonTexts_eq (file : Bytes) (field : ConfigField) :
    daemonTexts file field = ((placedIn file).filter fun placed => field.hasName placed.key).map Placed.text := by
  unfold daemonTexts placedIn
  rw [configLines_eq _ [], List.filter_map, List.map_map]
  rfl

section
variable {file : Bytes} {setting : SharedSetting} {line : Placed} (single : SingleLine file setting line)
include single

theorem SingleLine.pair_eq : line.pair = some ⟨setting.entry.key, line.text⟩ := by
  have key := (plain_configDefaults setting.known).1
  have value : trimmed line.back = line.text := by
    have trim := single.plain.trim
    unfold Placed.text trimmed at trim
    rw [List.dropWhile_idempotent] at trim
    exact trim
  have whole : fullKey line.sectionName (trimEnd line.front) = setting.entry.key := by
    unfold fullKey
    rw [single.here, single.name, if_pos key.named, ← key_eq key.dotted, List.take_of_length_le key.length]
  have kept : ¬ (trimEnd line.front = [] ∨ trimmed line.back = []) := by
    rw [single.name, value]
    rintro (none | none)
    · obtain ⟨first, rest, shape, _⟩ := key.rest.start
      rw [shape] at none
      cases none
    · exact single.plain.some none
  unfold Placed.pair
  rw [if_neg kept, whole, value, List.take_of_length_le single.plain.length]

theorem SingleLine.toolSays_eq : toolSays file setting.entry.key = some line.text := by
  obtain ⟨before, after, shape, few, first, _⟩ := single.place
  have parts : settings file = before.filterMap Placed.pair ++
    (⟨setting.entry.key, line.text⟩ :: after.filterMap Placed.pair) := by
    unfold settings
    rw [settingsOf_eq]
    change (placedIn file).filterMap Placed.pair = _
    rw [shape, List.filterMap_append, List.filterMap_cons_some single.pair_eq]
  have absent : (before.filterMap Placed.pair).find? (·.key = setting.entry.key) = none := by
    apply List.find?_eq_none.mpr
    intro pair inside same
    obtain ⟨other, member, seen⟩ := List.mem_filterMap.mp inside
    exact first other member pair seen (of_decide_eq_true same)
  have short := Nat.lt_of_le_of_lt (List.length_filterMap_le Placed.pair before) few
  have room : ∃ more, maxConfigEntries - (before.filterMap Placed.pair).length = more + 1 :=
    Nat.exists_eq_succ_of_ne_zero (by omega)
  obtain ⟨more, count⟩ := room
  have found (rest : List KvPair) : (KvPair.mk setting.entry.key line.text :: rest).find? (·.key = setting.entry.key) =
      some ⟨setting.entry.key, line.text⟩ := List.find?_cons_of_pos (decide_eq_true rfl)
  unfold toolSays
  rw [parts, List.take_append, List.take_of_length_le (Nat.le_of_lt short), count, List.take_succ_cons,
    List.find?_append, absent, found]
  rfl

theorem SingleLine.daemonTexts_eq : daemonTexts file setting.field = [line.text] := by
  obtain ⟨before, after, shape, _, _, alone⟩ := single.place
  have key := (plain_configDefaults setting.known).1
  have short : (trimEnd line.front).length ≤ 127 := by
    have length := congrArg List.length (key_eq key.dotted)
    rw [List.length_append, List.length_cons] at length
    have longest := key.length
    rw [single.name]
    omega
  have named : setting.field.hasName line.key := by
    rw [hasName_iff]
    unfold Placed.key
    rw [trimEnd_take short, single.name]
    exact setting.named
  have others (lines : List Placed) (inside : lines ⊆ before ++ after) :
    lines.filter (fun placed => setting.field.hasName placed.key) = [] := by
    apply List.filter_eq_nil_iff.mpr
    intro other member same
    exact alone other (inside member) (hasName_iff.mp same)
  have taken : (line :: after).filter (fun placed => setting.field.hasName placed.key) =
      line :: after.filter fun placed => setting.field.hasName placed.key := List.filter_cons_of_pos named
  rw [Tools.daemonTexts_eq, shape, List.filter_append, taken, others before (List.subset_append_left ..),
    others after (List.subset_append_right ..)]
  rfl

theorem SingleLine.agree : Agree file setting := by
  unfold Agree daemonSays
  rw [single.toolSays_eq, single.daemonTexts_eq]
  cases parsed : setting.field.parse line.text with
  | none =>
    rw [List.filterMap_cons_none parsed]
    exact .inl parsed
  | some value =>
    rw [List.filterMap_cons_some parsed]
    right
    rw [parsed]
    exact congrArg some (single.fits value parsed).symm

end

/-- What the tool reports is in force exactly if the lines the two go by agree, as they do for
a setting that stands on one line, where the tool would write it. -/
theorem reported_in_force_iff (file : Bytes) (setting : SharedSetting) :
    (InForce file setting ↔ Agree file setting) ∧ ∀ line, SingleLine file setting line → Agree file setting :=
  ⟨inForce_iff file setting, fun _ single => single.agree⟩

/-- A comment, a header and one line for the setting. -/
theorem reported_in_force_iff_plain : ∃ setting : SharedSetting, setting.entry.key = literal "tpm.require_tpm" ∧
    InForce (literal "# site\n[tpm]\nrequire_tpm = yes\n") setting := by
  have known : configEntry "tpm.require_tpm" "false" "Require TPM and deny plaintext fallback" ∈ configDefaults := by
    unfold configDefaults
    simp
  have named : restOf (literal "tpm.require_tpm") ∈ ConfigField.names .tpmRequire := by decide +kernel
  obtain ⟨agrees, single⟩ := reported_in_force_iff (literal "# site\n[tpm]\nrequire_tpm = yes\n")
    ⟨_, known, .tpmRequire, named⟩
  have here : sectionOf (literal "tpm.require_tpm") = literal "tpm" := by decide +kernel
  have name : restOf (literal "tpm.require_tpm") = trimEnd (literal "require_tpm ") := by decide +kernel
  have line : SingleLine (literal "# site\n[tpm]\nrequire_tpm = yes\n") ⟨_, known, .tpmRequire, named⟩
      ⟨literal "tpm", literal "require_tpm ", literal " yes"⟩ := {
    here := here.symm
    name := name.symm
    plain := by decide +kernel
    fits := fun _ _ => rfl
    place := ⟨[], [], rfl, by decide, nofun, nofun⟩ }
  exact ⟨_, rfl, agrees.mpr (single _ line)⟩
/-- A blank at the end of the line: the tool reports that the TPM is required, the daemon does
not take the line and goes on without it. -/
theorem trailing_blank_is_not_in_force : ∃ setting : SharedSetting,
    setting.entry.key = literal "tpm.require_tpm" ∧ setting.field = .tpmRequire ∧
    cmdGet (literal "[tpm]\nrequire_tpm = yes \n") (argOf "tpm.require" (by decide)) = some (literal "yes") ∧
    (bioDaemonConfigLoad (literal "[tpm]\nrequire_tpm = yes \n") bioDaemonConfigDefaults).tpmRequire = false ∧
    ¬ InForce (literal "[tpm]\nrequire_tpm = yes \n") setting := by
  have known : configEntry "tpm.require_tpm" "false" "Require TPM and deny plaintext fallback" ∈ configDefaults := by
    unfold configDefaults
    simp
  have reported : cmdGet (literal "[tpm]\nrequire_tpm = yes \n") (argOf "tpm.require" (by decide)) =
    some (literal "yes") := by decide +kernel
  have loaded : (bioDaemonConfigLoad (literal "[tpm]\nrequire_tpm = yes \n") bioDaemonConfigDefaults).tpmRequire =
    false := by decide +kernel
  have name : normalizeCliKey (argOf "tpm.require" (by decide)).bytes = literal "tpm.require_tpm" := by decide +kernel
  have accepted : parseConfigBool (literal "yes") = some true := by decide +kernel
  refine ⟨⟨_, known, .tpmRequire, by decide +kernel⟩, rfl, rfl, reported, loaded, ?_⟩
  intro every
  have wrong := every (argOf "tpm.require" (by decide)) (literal "yes") true name reported accepted
  exact Bool.false_ne_true (loaded.symm.trans wrong)

end Hiya.Tools
