import Hiya.Proofs.ConfigAgreement

/-! What a line of the configuration file does to the settings. The loader sees a file in pieces of
at most 511 bytes, cuts a key and a text to their buffers and takes an empty value where the
conversion does. Here a line is held to what it says as a whole. -/

namespace Hiya.Daemon.ConfigFile
open Library Tools

structure Setting where
  field : ConfigField
  value : field.Value
  fits : field.stored value = value

def Setting.put (setting : Setting) (config : BioDaemonConfig) : BioDaemonConfig := setting.field.write setting.value config

def apply (setting : Option Setting) (config : BioDaemonConfig) : BioDaemonConfig :=
    setting.elim config fun setting => setting.put config

theorem stored_stored (field : ConfigField) (value : field.Value) : field.stored (field.stored value) =
    field.stored value := by
  cases field <;> first | rfl | exact List.take_take.trans (congrArg (List.take · value) (Nat.min_self _))

theorem write_stored (field : ConfigField) (value : field.Value) (config : BioDaemonConfig) :
    field.write (field.stored value) config = field.write value config := by
  have same := stored_stored field value
  cases field <;> simp only [ConfigField.write, same]

theorem write_write (field : ConfigField) (first second : field.Value) (config : BioDaemonConfig) :
    field.write second (field.write first config) = field.write second config := by
  cases field <;> rfl

namespace Setting

theorem mk_congr {field : ConfigField} {first second : field.Value} (same : first = second)
    (fits : field.stored first = first)
    (also : field.stored second = second) : (⟨field, first, fits⟩ : Setting) = ⟨field, second, also⟩ := by
  subst same
  rfl

theorem read_put (setting : Setting) (config : BioDaemonConfig) : setting.field.read (setting.put config) = setting.value :=
  (read_write setting.field setting.value config).trans setting.fits

theorem read_put_of_ne {setting : Setting} {field : ConfigField} (different : field ≠ setting.field)
    (config : BioDaemonConfig) :
    field.read (setting.put config) = field.read config :=
  read_write_of_ne different setting.value config

theorem put_put {first second : Setting} (same : first.field = second.field) (config : BioDaemonConfig) :
    second.put (first.put config) = second.put config := by
  obtain ⟨field, value, fits⟩ := first
  subst same
  exact write_write second.field value second.value config

end Setting

def otherConfig : BioDaemonConfig :=
  ⟨0, 0, 0, 0, 0, 0, false, true, true, true, 0, 0, [], [], 0, [], [0], false, .error⟩

theorem exists_read_ne (field : ConfigField) (value : field.Value) : ∃ config : BioDaemonConfig,
    field.read config ≠ value := by
  have differ : field.read bioDaemonConfigDefaults ≠ field.read otherConfig := by cases field <;> decide +kernel
  by_cases same : field.read bioDaemonConfigDefaults = value
  · exact ⟨otherConfig, fun other => differ (same.trans other.symm)⟩
  · exact ⟨bioDaemonConfigDefaults, same⟩

def Only (own : Option Setting) (settings : List Setting) : Prop :=
  match own with
  | none => settings = []
  | some own => (∀ setting ∈ settings, setting.field = own.field) ∧ settings.getLast? = some own

def putAll (settings : List Setting) (config : BioDaemonConfig) : BioDaemonConfig :=
    settings.foldl (fun config setting => setting.put config) config

theorem read_putAll_of_absent {field : ConfigField} {settings : List Setting}
    (absent : ∀ setting ∈ settings, field ≠ setting.field) :
    ∀ config, field.read (putAll settings config) = field.read config := by
  induction settings with
  | nil => exact fun _ => rfl
  | cons setting settings ih =>
    intro config
    rw [putAll, List.foldl_cons]
    exact (ih (fun other inside => absent other (List.mem_cons_of_mem _ inside)) _).trans
      (Setting.read_put_of_ne (absent setting List.mem_cons_self) config)

theorem putAll_append (front back : List Setting) (config : BioDaemonConfig) : putAll (front ++ back) config =
    putAll back (putAll front config) :=
  List.foldl_append

/-- A field that is set at all is set for the last time somewhere. -/
theorem exists_last {field : ConfigField} {settings : List Setting} (some : ∃ setting ∈ settings, setting.field = field) :
    ∃ front last back, settings = front ++ last :: back ∧ last.field = field ∧ ∀ setting ∈ back, field ≠ setting.field := by
  induction settings with
  | nil =>
    obtain ⟨setting, inside, -⟩ := some
    cases inside
  | cons first rest ih =>
    by_cases later : ∃ setting ∈ rest, setting.field = field
    · obtain ⟨front, last, back, rfl, same, absent⟩ := ih later
      exact ⟨first :: front, last, back, rfl, same, absent⟩
    · obtain ⟨setting, inside, same⟩ := some
      obtain rfl | inside := List.mem_cons.mp inside
      · exact ⟨[], setting, rest, rfl, same, fun other within taken => later ⟨other, within, taken.symm⟩⟩
      · exact absurd ⟨setting, inside, same⟩ later

theorem read_putAll_last (front : List Setting) (last : Setting) {back : List Setting}
    (absent : ∀ setting ∈ back, last.field ≠ setting.field) (config : BioDaemonConfig) :
    last.field.read (putAll (front ++ last :: back) config) = last.value := by
  rw [putAll_append, putAll, List.foldl_cons]
  exact (read_putAll_of_absent absent _).trans (last.read_put _)

/-- Earlier settings of the field do not matter. -/
theorem put_putAll {own : Setting} {settings : List Setting} (same : ∀ setting ∈ settings, setting.field = own.field) :
    ∀ config, own.put (putAll settings config) = own.put config := by
  induction settings with
  | nil => exact fun _ => rfl
  | cons setting settings ih =>
    intro config
    rw [putAll, List.foldl_cons]
    exact (ih (fun other inside => same other (List.mem_cons_of_mem _ inside)) _).trans
      (Setting.put_put (same setting List.mem_cons_self) config)

/-- Settings act like one of their own exactly if they are settings of its field, and it comes last. -/
theorem only_iff (own : Option Setting) (settings : List Setting) :
    (∀ config, putAll settings config = apply own config) ↔ Only own settings := by
  constructor
  · intro same
    have owned (setting : Setting) (inside : setting ∈ settings) : ∃ taken, own = some taken ∧
      taken.field = setting.field := by
      obtain ⟨front, last, back, rfl, here, absent⟩ := exists_last ⟨setting, inside, rfl⟩
      obtain ⟨config, different⟩ := exists_read_ne last.field last.value
      have read := read_putAll_last front last (here ▸ absent) config
      rw [same config] at read
      cases own with
      | none => exact absurd read different
      | some taken =>
        refine ⟨taken, rfl, ?_⟩
        by_contra other
        have apart : last.field ≠ taken.field := fun equal => other (equal.symm.trans here)
        have kept := Setting.read_put_of_ne apart config
        exact different (kept.symm.trans read)
    cases own with
    | none =>
      refine List.eq_nil_iff_forall_not_mem.mpr fun setting inside => ?_
      obtain ⟨_, taken, -⟩ := owned setting inside
      cases taken
    | some own =>
      have fields (setting : Setting) (inside : setting ∈ settings) : setting.field = own.field := by
        obtain ⟨_, taken, here⟩ := owned setting inside
        cases taken
        exact here.symm
      refine ⟨fields, ?_⟩
      obtain rfl | ⟨front, last, rfl⟩ := List.eq_nil_or_concat' settings
      · obtain ⟨config, different⟩ := exists_read_ne own.field own.value
        exact absurd ((congrArg own.field.read (same config)).trans (own.read_put config)) different
      · rw [List.getLast?_concat]
        have here := fields last List.mem_concat_self
        obtain ⟨field, value, fits⟩ := last
        subst here
        have read := read_putAll_last front ⟨own.field, value, fits⟩ (List.forall_mem_nil _) bioDaemonConfigDefaults
        rw [same] at read
        obtain rfl := (own.read_put bioDaemonConfigDefaults).symm.trans read
        rfl
  · intro only config
    cases own with
    | none =>
      obtain rfl : settings = [] := only
      rfl
    | some own =>
      obtain ⟨fields, last⟩ := only
      obtain ⟨front, rfl⟩ := List.getLast?_eq_some_iff.mp last
      rw [putAll_append]
      exact put_putAll (fun setting inside => fields setting (List.mem_append_left _ inside)) config

/-- The texts before and after the first equal sign of a line that is no comment and no section. -/
def partsOf (line : Bytes) : Option (Bytes × Bytes) :=
  let text := (line.rdropWhile isLineEnd).dropWhile isBlank
  match text with
  | [] => none
  | first :: _ =>
    if first = hashSign ∨ first = semicolon ∨ first = bracketOpen then none
    else if equalSign ∈ text then some (text.takeWhile (· ≠ equalSign), (text.dropWhile (· ≠ equalSign)).drop 1)
    else none

def fieldOf (key : Bytes) : Option ConfigField := configFields.find? (·.hasName key)

/-- What the loader makes of a piece: the key is cut, and what is before a zero byte is all there is. -/
def pieceSetting (piece : Bytes) : Option Setting := do
  let (front, back) ← partsOf (cString piece)
  let field ← fieldOf (trimEnd (front.take 127))
  let value ← field.parse (back.dropWhile isBlank)
  pure ⟨field, field.stored value, stored_stored field value⟩

def completeSetting (field : ConfigField) (text : Bytes) : Option Setting :=
  if text = [] ∨ 0 ∈ text then none
  else do
    let value ← field.parse text
    if fits : field.stored value = value then some ⟨field, value, fits⟩ else none

def lineSetting (line : Bytes) : Option Setting := do
  let (front, back) ← partsOf line
  let field ← fieldOf (trimEnd front)
  completeSetting field (back.dropWhile isBlank)

theorem takeLine_eq (config : BioDaemonConfig) (piece : Bytes) :
    takeLine config piece = apply (pieceSetting piece) config := by
  have same : scanLine piece = partsOf (cString piece) := rfl
  unfold takeLine pieceSetting
  rw [configLine_eq, same]
  cases partsOf (cString piece) with
  | none => rfl
  | some parts =>
    simp only [Option.map_some, Option.bind_eq_bind, Option.bind_some, matchKey, fieldOf]
    cases configFields.find? fun field => field.hasName (trimEnd (parts.1.take 127)) with
    | none => rfl
    | some field =>
      dsimp only [Option.bind_some]
      cases field.parse (parts.2.dropWhile isBlank) with
      | none => rfl
      | some value => exact (write_stored field value config).symm

theorem mem_dropWhile_of_not {text : Bytes} {drop : UInt8 → Bool} {byte : UInt8} (kept : drop byte = false)
    (inside : byte ∈ text) :
    byte ∈ text.dropWhile drop := by
  rw [← List.takeWhile_append_dropWhile (p := drop) (l := text), List.mem_append] at inside
  obtain dropped | inside := inside
  · exact absurd (List.mem_takeWhile_imp dropped) (Bool.eq_false_iff.mp kept)
  · exact inside

theorem mem_rdropWhile_of_not {text : Bytes} {drop : UInt8 → Bool} {byte : UInt8} (kept : drop byte = false)
    (inside : byte ∈ text) :
    byte ∈ text.rdropWhile drop :=
  List.mem_reverse.mpr (mem_dropWhile_of_not kept (List.mem_reverse.mpr inside))

theorem partsOf_some {line front back : Bytes} (parts : partsOf line = some (front, back)) :
    (line.rdropWhile isLineEnd).dropWhile isBlank = front ++ equalSign :: back := by
  unfold partsOf at parts
  generalize (line.rdropWhile isLineEnd).dropWhile isBlank = text at parts
  cases text with
  | nil => cases parts
  | cons first rest =>
    dsimp only at parts
    split at parts
    · cases parts
    · split at parts
      · rename_i sign
        obtain ⟨before, after, shape, absent⟩ := List.eq_append_cons_of_mem sign
        rw [shape, (mem_takeWhile_ne absent).1, (mem_takeWhile_ne absent).2] at parts
        cases parts
        exact shape
      · cases parts

/-- A zero byte on a line is in its key or in its value. -/
theorem zero_absent {line front back : Bytes} (parts : partsOf line = some (front, back)) (key : 0 ∉ trimEnd front)
    (value : 0 ∉ back.dropWhile isBlank) : 0 ∉ line := by
  intro inside
  have within : 0 ∈ (line.rdropWhile isLineEnd).dropWhile isBlank :=
    mem_dropWhile_of_not (by decide) (mem_rdropWhile_of_not (by decide) inside)
  rw [partsOf_some parts, List.mem_append, List.mem_cons] at within
  obtain front | sign | back := within
  · exact key (mem_rdropWhile_of_not (by decide) front)
  · exact absurd sign (by decide)
  · exact value (mem_dropWhile_of_not (by decide) back)

theorem value_subset {line front back : Bytes} (parts : partsOf line = some (front, back)) :
    back.dropWhile isBlank ⊆ line := by
  intro byte inside
  have within : byte ∈ (line.rdropWhile isLineEnd).dropWhile isBlank := by
    rw [partsOf_some parts]
    exact List.mem_append_right _ (List.mem_cons_of_mem _ ((List.dropWhile_suffix _).subset inside))
  exact (List.rdropWhile_prefix _ _).subset ((List.dropWhile_suffix _).subset within)

theorem fieldOf_some {key : Bytes} {field : ConfigField} (found : fieldOf key = some field) : key.length ≤ 127 ∧ 0 ∉ key := by
  have all : ∀ field ∈ configFields, ∀ name ∈ field.names, name.length ≤ 127 ∧ 0 ∉ name := by decide +kernel
  unfold fieldOf at found
  have named := List.find?_some found
  exact all field (List.mem_of_find?_eq_some found) key (hasName_iff.mp named)

theorem cString_of_absent {line : Bytes} (absent : 0 ∉ line) : cString line = line :=
  List.takeWhile_eq_self_iff.mpr fun _ inside => decide_eq_true fun zero => absent (zero ▸ inside)

theorem lineSetting_eq_some {line : Bytes} {setting : Setting} : lineSetting line = some setting ↔
    ∃ front back, partsOf line = some (front, back) ∧ fieldOf (trimEnd front) = some setting.field ∧
      back.dropWhile isBlank ≠ [] ∧ 0 ∉ back.dropWhile isBlank ∧
      setting.field.parse (back.dropWhile isBlank) = some setting.value := by
  constructor
  · intro spoken
    obtain ⟨⟨front, back⟩, parts, spoken⟩ := Option.bind_eq_some_iff.mp spoken
    obtain ⟨field, found, spoken⟩ := Option.bind_eq_some_iff.mp spoken
    unfold completeSetting at spoken
    split at spoken
    · cases spoken
    · rename_i complete
      obtain ⟨value, parsed, spoken⟩ := Option.bind_eq_some_iff.mp spoken
      split at spoken
      · cases spoken
        exact ⟨front, back, parts, found, fun none => complete (.inl none), fun zero => complete (.inr zero), parsed⟩
      · cases spoken
  · rintro ⟨front, back, parts, found, some, clean, parsed⟩
    obtain ⟨field, value, fits⟩ := setting
    unfold lineSetting
    rw [parts]
    simp only [Option.bind_eq_bind, Option.bind_some]
    rw [found, Option.bind_some, completeSetting, if_neg (not_or.mpr ⟨some, clean⟩)]
    simp only [Option.bind_eq_bind]
    rw [parsed, Option.bind_some, dif_pos fits]

theorem pieceSetting_eq_some {piece : Bytes} {setting : Setting} : pieceSetting piece = some setting ↔
    ∃ front back value, partsOf (cString piece) = some (front, back) ∧
    fieldOf (trimEnd (front.take 127)) = some setting.field ∧
      setting.field.parse (back.dropWhile isBlank) = some value ∧ setting.field.stored value = setting.value := by
  constructor
  · intro taken
    obtain ⟨⟨front, back⟩, parts, taken⟩ := Option.bind_eq_some_iff.mp taken
    obtain ⟨field, found, taken⟩ := Option.bind_eq_some_iff.mp taken
    obtain ⟨value, parsed, taken⟩ := Option.bind_eq_some_iff.mp taken
    cases taken
    exact ⟨front, back, value, parts, found, parsed, rfl⟩
  · rintro ⟨front, back, value, parts, found, parsed, kept⟩
    obtain ⟨field, other, fits⟩ := setting
    unfold pieceSetting
    rw [parts]
    simp only [Option.bind_eq_bind, Option.bind_some]
    rw [found, Option.bind_some, parsed]
    exact congrArg some (Setting.mk_congr kept _ fits)

/-- What a line says as a whole is what the loader takes where it sees the line in one piece. -/
theorem pieceSetting_of_lineSetting {line : Bytes} {setting : Setting} (spoken : lineSetting line = some setting) :
    0 ∉ line ∧ pieceSetting line = some setting := by
  obtain ⟨front, back, parts, found, _, clean, parsed⟩ := lineSetting_eq_some.mp spoken
  obtain ⟨short, plain⟩ := fieldOf_some found
  have absent := zero_absent parts plain clean
  refine ⟨absent, pieceSetting_eq_some.mpr ⟨front, back, setting.value, ?_, ?_, parsed, setting.fits⟩⟩
  · rwa [cString_of_absent absent]
  · rwa [trimEnd_take short]

/-- A setting that the loader takes from a line is on the line in full: all of it is text, the key
is not cut, and the value is there and fits. -/
def Plain (line : Bytes) : Prop :=
  ∀ front back field value, partsOf (cString line) = some (front, back) → fieldOf (trimEnd (front.take 127)) = some field →
    field.parse (back.dropWhile isBlank) = some value →
      0 ∉ line ∧ (trimEnd front).length ≤ 127 ∧ back.dropWhile isBlank ≠ [] ∧ field.stored value = value

theorem plain_iff (line : Bytes) : pieceSetting line = lineSetting line ↔ Plain line := by
  constructor
  · intro same front back field value parts found parsed
    have taken : pieceSetting line = some ⟨field, field.stored value, stored_stored field value⟩ :=
      pieceSetting_eq_some.mpr ⟨front, back, value, parts, found, parsed, rfl⟩
    have spoken := same.symm.trans taken
    have absent := (pieceSetting_of_lineSetting spoken).1
    obtain ⟨front', back', parts', found', some, _, parsed'⟩ := lineSetting_eq_some.mp spoken
    rw [cString_of_absent absent, parts'] at parts
    cases parts
    rw [parsed'] at parsed
    exact ⟨absent, (fieldOf_some found').1, some, Option.some.inj parsed⟩
  · intro plain
    cases spoken : lineSetting line with
    | some setting => exact (pieceSetting_of_lineSetting spoken).2
    | none =>
      refine Option.eq_none_iff_forall_ne_some.mpr fun setting taken => ?_
      obtain ⟨front, back, value, parts, found, parsed, kept⟩ := pieceSetting_eq_some.mp taken
      obtain ⟨absent, short, some, fits⟩ := plain front back setting.field value parts found parsed
      rw [cString_of_absent absent] at parts
      rw [trimEnd_take short] at found
      have clean : 0 ∉ back.dropWhile isBlank := fun zero => absent (value_subset parts zero)
      have whole := lineSetting_eq_some.mpr ⟨front, back, parts, found, some, clean, kept ▸ fits.symm ▸ parsed⟩
      rw [spoken] at whole
      cases whole

/-- What the loader does with a line: it takes the pieces one by one. -/
def takePieces (config : BioDaemonConfig) (line : Bytes) : BioDaemonConfig := (fgetsAll 511 [] line).foldl takeLine config

/-- What a line has to do as a whole. -/
def takeWhole (config : BioDaemonConfig) (line : Bytes) : BioDaemonConfig := apply (lineSetting line) config

/-- A line that acts as a whole: one that fits the buffer, where what is taken is there in full, or
a longer one of whose pieces none is taken for a setting, but for the setting that it is. -/
def Whole (line : Bytes) : Prop :=
  if line.length ≤ 511 then Plain line else Only (lineSetting line) ((fgetsAll 511 [] line).filterMap pieceSetting)

theorem foldl_takeLine (pieces : List Bytes) : ∀ config,
    pieces.foldl takeLine config = putAll (pieces.filterMap pieceSetting) config := by
  induction pieces with
  | nil => exact fun _ => rfl
  | cons piece pieces ih =>
    intro config
    rw [List.foldl_cons, ih, takeLine_eq]
    cases taken : pieceSetting piece with
    | none => rw [List.filterMap_cons_none taken]; rfl
    | some setting => rw [List.filterMap_cons_some taken]; rfl

/-- The file is read as its lines are, each by itself. -/
theorem bioDaemonConfigLoad_eq (file : Bytes) (config : BioDaemonConfig) :
    bioDaemonConfigLoad file config = (linesOf [] file).foldl takePieces config := by
  unfold bioDaemonConfigLoad takePieces
  rw [fgetsAll_eq_flatMap, List.foldl_flatMap]

theorem whole_iff {line : Bytes} (shape : Line line) : (∀ config, takePieces config line = takeWhole config line) ↔
    Whole line := by
  have pieces : (∀ config, takePieces config line = takeWhole config line) ↔
      Only (lineSetting line) ((fgetsAll 511 [] line).filterMap pieceSetting) := by
    rw [← only_iff]
    exact forall_congr' fun config => by rw [takePieces, foldl_takeLine, takeWhole]
  rw [pieces]
  unfold Whole
  split
  · rename_i short
    rw [fgetsAll_of_fits shape short, ← plain_iff]
    cases taken : pieceSetting line with
    | none =>
      rw [List.filterMap_cons_none taken, List.filterMap_nil]
      cases lineSetting line with
      | none => exact iff_of_true rfl rfl
      | some own => exact iff_of_false (fun only => nomatch only.2) nofun
    | some setting =>
      rw [List.filterMap_cons_some taken, List.filterMap_nil]
      cases lineSetting line with
      | none => exact iff_of_false (fun only => nomatch only) nofun
      | some own =>
        refine ⟨fun only => only.2, fun same => ⟨fun other inside => ?_, same⟩⟩
        cases List.mem_singleton.mp inside
        cases same
        rfl
  · rfl

theorem lines_whole_iff (file : Bytes) :
    (∀ line ∈ linesOf [] file, ∀ config, takePieces config line = takeWhole config line) ↔
    ∀ line ∈ linesOf [] file, Whole line :=
  forall₂_congr fun _ inside => whole_iff (line_of_mem inside)

theorem load_of_whole {file : Bytes} (whole : ∀ line ∈ linesOf [] file, Whole line) (config : BioDaemonConfig) :
    bioDaemonConfigLoad file config = (linesOf [] file).foldl takeWhole config := by
  rw [bioDaemonConfigLoad_eq]
  exact List.foldl_ext _ _ _ fun config line inside => (lines_whole_iff file).mpr whole line inside config

/-- A file is read line by line, and every line acts as the setting that it is as a whole, or not
at all, exactly if it is a whole line. -/
theorem lines_act_whole_iff (file : Bytes) :
    (∀ config, bioDaemonConfigLoad file config = (linesOf [] file).foldl takePieces config) ∧
    ((∀ line ∈ linesOf [] file, ∀ config, takePieces config line = takeWhole config line) ↔
    ∀ line ∈ linesOf [] file, Whole line) ∧
    ((∀ line ∈ linesOf [] file, Whole line) →
    ∀ config, bioDaemonConfigLoad file config = (linesOf [] file).foldl takeWhole config) :=
  ⟨bioDaemonConfigLoad_eq file, lines_whole_iff file, load_of_whole⟩

/-- A comment of 511 bytes before its end: the end is taken for a setting. So is no value at all. -/
theorem long_comment_becomes_a_setting :
    let comment := hashSign :: List.replicate 510 120 ++ literal "tpm_require = yes\n"
    let empty := literal "vault_idle_timeout =\n"
    (bioDaemonConfigLoad comment bioDaemonConfigDefaults).tpmRequire = true ∧
      ((linesOf [] comment).foldl takeWhole bioDaemonConfigDefaults).tpmRequire = false ∧
      (bioDaemonConfigLoad empty bioDaemonConfigDefaults).vaultIdleTimeoutSeconds = 0 ∧
      ((linesOf [] empty).foldl takeWhole bioDaemonConfigDefaults).vaultIdleTimeoutSeconds = 1800 := by
  decide +kernel

end Hiya.Daemon.ConfigFile
