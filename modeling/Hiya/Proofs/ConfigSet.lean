import Mathlib.Data.List.Find
import Hiya.Proofs.ConfigLines

/-! Setting one value and reading the file again. The table that `hiya-config set` writes is
found again except for what has no room in it and for values the reader trims or drops. -/

namespace Hiya.Tools
open Library

structure PlainValue (value : Bytes) : Prop where
  some : value ≠ []
  trim : trimmed value = value
  length : value.length ≤ 255

structure KvPair.Plain (pair : KvPair) : Prop extends pair.Written where
  read : PlainValue pair.value

def KvPair.solid (pair : KvPair) : Bool := trimmed pair.value ≠ []

/-- A pair the reader can take for the name. -/
def answers (name : Bytes) (pair : KvPair) : Bool := pair.solid && pair.key = name

theorem answers_iff {name : Bytes} {pair : KvPair} : answers name pair = true ↔ trimmed pair.value ≠ [] ∧
    pair.key = name := by
  unfold answers KvPair.solid
  rw [Bool.and_eq_true, decide_eq_true_iff, decide_eq_true_iff]

theorem flatMap_reread (pairs : List KvPair) :
    pairs.flatMap reread = (pairs.filter KvPair.solid).map fun pair => ⟨pair.key, trimmed pair.value⟩ := by
  induction pairs with
  | nil => rfl
  | cons pair pairs ih =>
    rw [List.flatMap_cons, ih]
    unfold reread
    by_cases none : trimmed pair.value = []
    · rw [if_pos none, List.filter_cons_of_neg (by simp [KvPair.solid, none])]
      rfl
    · rw [if_neg none, List.filter_cons_of_pos (by simp [KvPair.solid, none])]
      rfl

def sectionsOf (table : List KvPair) : List Bytes := firstKeys pairSection 32 table

/-- The reader sees all that was written, and takes the first pair of the name that is not blank. -/
theorem configFind_save {table : List KvPair} (written : ∀ pair ∈ table, pair.Written)
    (few : table.length ≤ maxConfigEntries) (name : Bytes) :
    configFind (configLoad (configSave table)) name =
      if sectionOf name ∈ sectionsOf table then (table.find? (answers name)).map fun pair => trimmed pair.value
      else none := by
  have nodup := nodup_firstKeys pairSection 32 table
  have fits : (settings (configSave table)).length ≤ maxConfigEntries := by
    rw [settings_save written, flatMap_reread, List.length_map]
    exact Nat.le_trans (List.length_filter_le ..) (Nat.le_trans (length_regrouped_le pairSection _ table nodup) few)
  have one : ∀ pair : KvPair, answers name pair → pairSection pair = sectionOf name := by
    intro pair found
    unfold pairSection
    rw [(answers_iff.mp found).2]
  unfold configFind
  rw [configLoad_eq, List.take_of_length_le fits, settings_save written, flatMap_reread, List.find?_map, List.find?_filter]
  have kind : (fun pair : KvPair => decide (pair.solid = true ∧
      ((fun read : KvPair => decide (read.key = name)) ∘ fun pair => KvPair.mk pair.key (trimmed pair.value)) pair = true)) =
      answers name := by
    funext pair
    simp only [answers, Function.comp_apply, decide_eq_true_eq, Bool.decide_and, Bool.decide_eq_true]
  rw [kind, find?_regrouped pairSection one _ table nodup, Option.map_map]
  by_cases listed : sectionOf name ∈ sectionsOf table
  · rw [if_pos listed, if_pos (show sectionOf name ∈ firstKeys pairSection 32 table from listed)]
    rfl
  · rw [if_neg listed, if_neg (show ¬ sectionOf name ∈ firstKeys pairSection 32 table from listed)]
    rfl

theorem keys_replaceValue (name value : Bytes) (table : List KvPair) : (replaceValue name value table).map KvPair.key =
    table.map KvPair.key := by
  induction table with
  | nil => rfl
  | cons pair table ih =>
    rw [replaceValue]
    split
    · rfl
    · rw [List.map_cons, List.map_cons, ih]

/-- The pairs that setting a value leaves as they are. -/
def untouched (name : Bytes) (table : List KvPair) : List KvPair := table.eraseP (·.key = name)

theorem mem_replaceValue {name value : Bytes} {table : List KvPair} {pair : KvPair}
    (inside : pair ∈ replaceValue name value table) :
    pair ∈ untouched name table ∨ pair = ⟨name, value⟩ := by
  unfold untouched
  induction table with
  | nil => cases inside
  | cons first table ih =>
    rw [replaceValue] at inside
    split at inside
    next same =>
      rw [List.eraseP_cons, decide_eq_true same]
      obtain rfl | later := List.mem_cons.mp inside
      · right
        rw [same]
      · exact .inl later
    next other =>
      rw [List.eraseP_cons, decide_eq_false other]
      obtain rfl | later := List.mem_cons.mp inside
      · exact .inl List.mem_cons_self
      · exact (ih later).imp_left (List.mem_cons_of_mem _)

theorem find?_replaceValue_of_ne {name other : Bytes} (different : other ≠ name) (value : Bytes) (table : List KvPair) :
    (replaceValue name value table).find? (answers other) = table.find? (answers other) := by
  induction table with
  | nil => rfl
  | cons pair table ih =>
    rw [replaceValue]
    split
    next same =>
      have neither (text : Bytes) : ¬ answers other ⟨pair.key, text⟩ = true :=
        fun found => different ((answers_iff.mp found).2.symm.trans same)
      rw [List.find?_cons_of_neg (neither value), List.find?_cons_of_neg (neither pair.value)]
    · rw [List.find?_cons, List.find?_cons, ih]

theorem find?_replaceValue {name value : Bytes} (some : trimmed value ≠ []) {table : List KvPair}
    (present : name ∈ table.map KvPair.key) :
    (replaceValue name value table).find? (answers name) = .some ⟨name, value⟩ := by
  induction table with
  | nil => cases present
  | cons pair table ih =>
    rw [replaceValue]
    split
    next same =>
      rw [same]
      exact List.find?_cons_of_pos (answers_iff.mpr ⟨some, rfl⟩)
    next different =>
      rw [List.find?_cons_of_neg (fun found => different (answers_iff.mp found).2)]
      obtain same | later := List.mem_cons.mp present
      · exact absurd same.symm different
      · exact ih later

theorem configSet_cases (table : List KvPair) (name value : Bytes) (short : name.length ≤ 127) :
    (name ∈ table.map KvPair.key ∧ configSet table name value = replaceValue name (value.take 255) table) ∨
    (name ∉ table.map KvPair.key ∧ maxConfigEntries ≤ table.length ∧ configSet table name value = table) ∨
    (name ∉ table.map KvPair.key ∧ table.length < maxConfigEntries ∧
    configSet table name value = table ++ [⟨name, value.take 255⟩]) := by
  unfold configSet
  by_cases present : ∃ pair ∈ table, pair.key = name
  · exact .inl ⟨List.mem_map.mpr present, if_pos present⟩
  · have absent : name ∉ table.map KvPair.key := fun inside => present (List.mem_map.mp inside)
    rw [if_neg present]
    by_cases full : table.length ≥ maxConfigEntries
    · exact .inr (.inl ⟨absent, full, if_pos full⟩)
    · refine .inr (.inr ⟨absent, Nat.lt_of_not_le full, ?_⟩)
      rw [if_neg full, List.take_of_length_le short]

theorem mem_configSet {table : List KvPair} {name value : Bytes} (short : name.length ≤ 127) {pair : KvPair}
    (inside : pair ∈ configSet table name value) : pair ∈ untouched name table ∨ pair = ⟨name, value.take 255⟩ := by
  have whole (absent : name ∉ table.map KvPair.key) : untouched name table = table :=
    List.eraseP_of_forall_not fun other member same => absent (List.mem_map.mpr ⟨other, member, of_decide_eq_true same⟩)
  obtain ⟨_, result⟩ | ⟨absent, _, result⟩ | ⟨absent, _, result⟩ := configSet_cases table name value short
  · rw [result] at inside
    exact mem_replaceValue inside
  · rw [result] at inside
    exact .inl ((whole absent).symm ▸ inside)
  · rw [result] at inside
    rw [whole absent]
    exact (List.mem_append.mp inside).imp_right List.mem_singleton.mp

theorem length_configSet {table : List KvPair} {name value : Bytes} (short : name.length ≤ 127)
    (few : table.length ≤ maxConfigEntries) :
    (configSet table name value).length ≤ maxConfigEntries := by
  obtain ⟨_, result⟩ | ⟨_, _, result⟩ | ⟨_, space, result⟩ := configSet_cases table name value short
  · have same := congrArg List.length (keys_replaceValue name (value.take 255) table)
    rw [List.length_map, List.length_map] at same
    rw [result, same]
    exact few
  · rw [result]
    exact few
  · rw [result, List.length_append, List.length_singleton]
    exact space

theorem sectionsOf_replaceValue (name value : Bytes) (table : List KvPair) :
    sectionsOf (replaceValue name value table) = sectionsOf table := by
  apply firstKeys_of_map_eq
  have same := congrArg (List.map sectionOf) (keys_replaceValue name value table)
  rw [List.map_map, List.map_map] at same
  exact same

/-- Where the pairs of a name are read as they were written, the first of them answers. -/
theorem find?_answers {table : List KvPair} {name : Bytes} (plain : ∀ pair ∈ table, pair.key = name → PlainValue pair.value) :
    (table.find? (answers name)).map (fun pair => trimmed pair.value) = configFind table name := by
  have same : table.find? (answers name) = table.find? (·.key = name) := by
    apply List.find?_congr
    intro pair inside
    rw [Bool.eq_iff_iff, answers_iff, decide_eq_true_iff]
    refine and_iff_right_of_imp fun named => ?_
    have read := plain pair inside named
    exact read.trim.symm ▸ read.some
  unfold configFind
  rw [same]
  cases found : table.find? (·.key = name) with
  | none => rfl
  | some pair => exact congrArg _ (plain pair (List.mem_of_find?_eq_some found) (by simpa using List.find?_some found)).trim

/-- Room for the name: it is in the table or the table is not full, and its section is
among those that are written or one more can be. -/
def HasRoom (table : List KvPair) (name : Bytes) : Prop :=
  (name ∈ table.map KvPair.key ∨ table.length < maxConfigEntries) ∧
    (sectionOf name ∈ sectionsOf table ∨ (sectionsOf table).length < 32)

section
variable {table : List KvPair} {name value : Bytes}

theorem written_configSet (plain : ∀ pair ∈ untouched name table, pair.Plain) (key : PlainKey name)
    (writable : Writable (value.take 255)) :
    ∀ pair ∈ configSet table name value, pair.Written := by
  intro pair inside
  obtain old | rfl := mem_configSet key.length inside
  · exact (plain pair old).toWritten
  · exact ⟨key, writable⟩

variable (plain : ∀ pair ∈ untouched name table, pair.Plain) (few : table.length ≤ maxConfigEntries)
    (key : PlainKey name) (writable : Writable (value.take 255))
include plain few key writable

/-- Another name is found as before, if its section is written. -/
theorem configFind_other {other : Bytes} (different : other ≠ name) :
    configFind (configLoad (configSave (configSet table name value))) other = if sectionOf other ∈ sectionsOf table
    then configFind table other else none := by
  have read : ∀ pair ∈ table, pair.key = other → PlainValue pair.value := by
    intro pair inside named
    refine (plain pair ((List.mem_eraseP_of_neg ?_).mpr inside)).read
    simpa [named] using different
  rw [configFind_save (written_configSet plain key writable) (length_configSet key.length few), ← find?_answers read]
  obtain ⟨_, result⟩ | ⟨_, _, result⟩ | ⟨_, _, result⟩ := configSet_cases table name value key.length
  · rw [result, sectionsOf_replaceValue, find?_replaceValue_of_ne different]
  · rw [result]
  · have missed : ¬ answers other ⟨name, value.take 255⟩ = true := fun found => different (answers_iff.mp found).2.symm
    have same : (table ++ [KvPair.mk name (value.take 255)]).find? (answers other) = table.find? (answers other) := by
      rw [List.find?_append, List.find?_singleton, if_neg missed, Option.or_none]
    rw [result, same]
    by_cases before : sectionOf other ∈ sectionsOf table
    · have after : sectionOf other ∈ sectionsOf (table ++ [⟨name, value.take 255⟩]) :=
        (mem_firstKeys_concat pairSection).mpr (.inl before)
      rw [if_pos before, if_pos after]
    · rw [if_neg before]
      split
      next listed =>
        -- the section is new, so no pair of the table is in it
        obtain ⟨_, space⟩ := ((mem_firstKeys_concat pairSection).mp listed).resolve_left before
        have absent : table.find? (answers other) = none := by
          apply List.find?_eq_none.mpr
          intro pair inside found
          have occurs : sectionOf other ∈ table.map pairSection :=
            List.mem_map.mpr ⟨pair, inside, congrArg sectionOf (answers_iff.mp found).2⟩
          exact Nat.not_le_of_lt space (full_of_missed pairSection occurs before)
        rw [absent]
        rfl
      · rfl

/-- The name is found with its value, if there is room for it. -/
theorem configFind_name (some : trimmed (value.take 255) ≠ []) (room : HasRoom table name) :
    configFind (configLoad (configSave (configSet table name value))) name = .some (trimmed (value.take 255)) := by
  rw [configFind_save (written_configSet plain key writable) (length_configSet key.length few)]
  obtain ⟨present, result⟩ | ⟨absent, full, _⟩ | ⟨absent, _, result⟩ := configSet_cases table name value key.length
  · have listed : sectionOf name ∈ sectionsOf table := by
      apply not_not.mp
      intro missed
      obtain ⟨pair, inside, same⟩ := List.mem_map.mp present
      have full := full_of_missed pairSection (List.mem_map.mpr ⟨pair, inside, congrArg sectionOf same⟩) missed
      exact Nat.not_le_of_lt (room.2.resolve_left missed) full
    rw [result, sectionsOf_replaceValue, if_pos listed, find?_replaceValue some present]
    rfl
  · exact absurd full (Nat.not_le_of_lt (room.1.resolve_left absent))
  · have listed : sectionOf name ∈ sectionsOf (table ++ [⟨name, value.take 255⟩]) :=
      (mem_firstKeys_concat pairSection).mpr (room.2.imp_right fun space => ⟨rfl, space⟩)
    have missed : table.find? (answers name) = none := by
      apply List.find?_eq_none.mpr
      intro pair inside found
      exact absent (List.mem_map.mpr ⟨pair, inside, (answers_iff.mp found).2⟩)
    have found : answers name ⟨name, value.take 255⟩ = true := answers_iff.mpr ⟨some, rfl⟩
    rw [result, if_pos listed, List.find?_append, missed, List.find?_singleton, if_pos found]
    rfl

/-- The name is not found, if there is no room for it. -/
theorem configFind_name_of_full (full : ¬ HasRoom table name) :
    configFind (configLoad (configSave (configSet table name value))) name = none := by
  rw [configFind_save (written_configSet plain key writable) (length_configSet key.length few)]
  split
  next listed =>
    obtain ⟨present, result⟩ | ⟨absent, _, result⟩ | ⟨_, space, result⟩ := configSet_cases table name value key.length
    · rw [result, sectionsOf_replaceValue] at listed
      exact absurd ⟨.inl present, .inl listed⟩ full
    · rw [result, Option.map_eq_none_iff, List.find?_eq_none]
      intro pair inside same
      exact absent (List.mem_map.mpr ⟨pair, inside, (answers_iff.mp same).2⟩)
    · rw [result] at listed
      exact absurd ⟨.inr space, ((mem_firstKeys_concat pairSection).mp listed).imp_right And.right⟩ full
  · rfl

/-- Whatever is read back can be read back again. -/
theorem plain_of_found {name' text : Bytes}
    (found : configFind (configLoad (configSave (configSet table name value))) name' = some text) :
    PlainValue text := by
  have written := written_configSet plain key writable
  rw [configFind_save written (length_configSet key.length few)] at found
  split at found
  · obtain ⟨pair, answer, rfl⟩ := Option.map_eq_some_iff.mp found
    have length := (written pair (List.mem_of_find?_eq_some answer)).value.length
    exact ⟨(answers_iff.mp (List.find?_some answer)).1, trimmed_trimmed _, Nat.le_trans (length_trimmed_le _) length⟩
  · cases found

end

instance : DecidablePred PlainRest
  | [] => isFalse fun plain => by
    obtain ⟨first, tail, shape, _⟩ := plain.start
    cases shape
  | first :: tail => decidable_of_iff ((isBlank first = false ∧ first ≠ hashSign ∧ first ≠ semicolon ∧ first ≠ bracketOpen) ∧
      equalSign ∉ first :: tail ∧ trimEnd (first :: tail) = first :: tail) <| by
    constructor
    · intro ⟨start, single, stop⟩
      exact ⟨⟨first, tail, rfl, start⟩, single, stop⟩
    · intro ⟨⟨_, _, rfl, start⟩, single, stop⟩
      exact ⟨start, single, stop⟩

instance (key : Bytes) : Decidable (PlainKey key) :=
  decidable_of_iff (dot ∈ key ∧ sectionOf key ≠ [] ∧ (sectionOf key).length ≤ 62 ∧ bracketClose ∉ sectionOf key ∧
    PlainRest (restOf key) ∧ 0 ∉ key ∧
    newline ∉ key ∧ key.length ≤ 127)
    ⟨fun ⟨dotted, named, short, closed, rest, clean, single, length⟩ =>
      ⟨dotted, named, short, closed, rest, clean, single, length⟩,
      fun ⟨dotted, named, short, closed, rest, clean, single, length⟩ =>
        ⟨dotted, named, short, closed, rest, clean, single, length⟩⟩

instance (value : Bytes) : Decidable (PlainValue value) :=
  decidable_of_iff (value ≠ [] ∧ trimmed value = value ∧ value.length ≤ 255)
    ⟨fun ⟨solid, trim, length⟩ => ⟨solid, trim, length⟩, fun ⟨solid, trim, length⟩ => ⟨solid, trim, length⟩⟩

/-- The names the tool knows can be written, and so can their defaults. -/
theorem plain_configDefaults {entry : ConfigEntry} (inside : entry ∈ configDefaults) : PlainKey entry.key ∧
    PlainValue entry.default := by
  have all : ∀ entry ∈ configDefaults, PlainKey entry.key ∧ PlainValue entry.default := by decide +kernel
  exact all entry inside

theorem plain_configDefault {name text : Bytes} (default : configDefault name = some text) : PlainValue text := by
  obtain ⟨entry, found, rfl⟩ := Option.map_eq_some_iff.mp default
  exact (plain_configDefaults (List.mem_of_find?_eq_some found)).2

/-- What is found in the part of the file that is loaded is found in the file. -/
theorem configFind_settings {file name text : Bytes} (found : configFind (configLoad file) name = some text) :
    configFind (settings file) name = some text := by
  obtain ⟨pair, first, rfl⟩ := Option.map_eq_some_iff.mp found
  rw [configLoad_eq] at first
  unfold configFind
  rw [← List.take_append_drop maxConfigEntries (settings file), List.find?_append, first]
  rfl

/-- The file gives the value for the key, and for every other setting what it gave before. -/
def ReadBack (file new : Bytes) (key value : Arg) : Prop :=
  cmdGet new key = some value.bytes ∧
    ∀ other text, other ≠ normalizeCliKey key.bytes → configFind (settings file) other = some text →
      configGet (configLoad new) other = some text

/-- A setting that is loaded and whose section is written. -/
def Kept (file name : Bytes) : Prop := name ∈ (configLoad file).map KvPair.key ∧ sectionOf name ∈ sectionsOf (configLoad file)

instance (file name : Bytes) : Decidable (Kept file name) := inferInstanceAs (Decidable (_ ∧ _))

/-- Everything has its place, up to what the defaults give anyway. -/
def Fits (file : Bytes) (key value : Arg) : Prop :=
  PlainValue value.bytes ∧
    (HasRoom (configLoad file) (normalizeCliKey key.bytes) ∨ configDefault (normalizeCliKey key.bytes) = some value.bytes) ∧
    ∀ other text, other ≠ normalizeCliKey key.bytes → configFind (settings file) other = some text → Kept file other ∨
      configDefault other = some text

theorem cmdSet_eq_some {file new : Bytes} {key value : Arg} (done : cmdSet file key value = some new) :
    PlainKey (normalizeCliKey key.bytes) ∧ Writable (value.bytes.take 255) ∧
      new = configSave (configSet (configLoad file) (normalizeCliKey key.bytes) value.bytes) := by
  unfold cmdSet at done
  dsimp only at done
  split at done
  · cases done
  next known =>
    split at done
    · cases done
    next inline =>
      obtain ⟨entry, inside, name⟩ := not_not.mp known
      obtain ⟨noNewline, noReturn⟩ := not_or.mp inline
      have part := List.take_subset 255 value.bytes
      refine ⟨name ▸ (plain_configDefaults inside).1,
        ⟨fun zero => value.clean (part zero), fun line => noNewline (part line), ?_, ?_⟩, ?_⟩
      · rw [List.rdropWhile_eq_self_iff]
        intro some last
        have member := part (List.getLast_mem some)
        obtain line | back := of_decide_eq_true last
        · exact noNewline (line ▸ member)
        · exact noReturn (back ▸ member)
      · rw [List.length_take]
        exact Nat.min_le_left ..
      · exact (Option.some.inj done).symm

theorem configGet_of_found {table : List KvPair} {name text : Bytes} (found : configFind table name = some text) :
    configGet table name = some text := by
  unfold configGet
  rw [found]
  rfl

theorem configGet_of_missing {table : List KvPair} {name : Bytes} (missing : configFind table name = none) :
    configGet table name = configDefault name := by
  unfold configGet
  rw [missing]
  rfl

theorem configFind_eq_none {table : List KvPair} {name : Bytes} : configFind table name = none ↔
    name ∉ table.map KvPair.key := by
  unfold configFind
  rw [Option.map_eq_none_iff, List.find?_eq_none]
  constructor
  · intro none inside
    obtain ⟨pair, member, same⟩ := List.mem_map.mp inside
    exact none pair member (decide_eq_true same)
  · intro absent pair member same
    exact absent (List.mem_map.mpr ⟨pair, member, of_decide_eq_true same⟩)

theorem mem_keys_of_found {table : List KvPair} {name text : Bytes} (found : configFind table name = some text) :
    name ∈ table.map KvPair.key := by
  apply not_not.mp
  intro absent
  rw [configFind_eq_none.mpr absent] at found
  cases found

theorem configGet_name_iff {table : List KvPair} {name value : Bytes} (plain : ∀ pair ∈ untouched name table, pair.Plain)
    (few : table.length ≤ maxConfigEntries) (key : PlainKey name) (writable : Writable (value.take 255)) :
    configGet (configLoad (configSave (configSet table name value))) name = some value ↔
      PlainValue value ∧ (HasRoom table name ∨ configDefault name = some value) := by
  have default (full : ¬ HasRoom table name) : configGet (configLoad (configSave (configSet table name value))) name =
    configDefault name :=
    configGet_of_missing (configFind_name_of_full plain few key writable full)
  constructor
  · intro given
    have read : PlainValue value := by
      cases found : configFind (configLoad (configSave (configSet table name value))) name with
      | none =>
        rw [configGet_of_missing found] at given
        exact plain_configDefault given
      | some text =>
        rw [configGet_of_found found] at given
        exact Option.some.inj given ▸ plain_of_found plain few key writable found
    refine ⟨read, ?_⟩
    by_cases room : HasRoom table name
    · exact .inl room
    · rw [default room] at given
      exact .inr given
  · intro ⟨read, either⟩
    have whole : trimmed (value.take 255) = value := by
      rw [List.take_of_length_le read.length]
      exact read.trim
    by_cases room : HasRoom table name
    · have found := configFind_name plain few key writable (whole.symm ▸ read.some) room
      rw [whole] at found
      exact configGet_of_found found
    · rw [default room]
      exact either.resolve_left room

theorem configGet_other_iff {file name other value text : Bytes} (plain : ∀ pair ∈ untouched name (configLoad file),
    pair.Plain)
    (few : (configLoad file).length ≤ maxConfigEntries) (key : PlainKey name) (writable : Writable (value.take 255))
    (different : other ≠ name)
    (set : configFind (settings file) other = some text) :
    configGet (configLoad (configSave (configSet (configLoad file) name value))) other = some text ↔ Kept file other ∨
    configDefault other = some text := by
  have after := configFind_other plain few key writable different
  by_cases kept : Kept file other
  · have loaded : configFind (configLoad file) other = some text := by
      cases found : configFind (configLoad file) other with
      | none => exact absurd kept.1 (configFind_eq_none.mp found)
      | some old => exact (configFind_settings found).symm.trans set
    rw [if_pos kept.2, loaded] at after
    exact iff_of_true (configGet_of_found after) (.inl kept)
  · have missing : configFind (configLoad (configSave (configSet (configLoad file) name value))) other = none := by
      rw [after]
      split
      next listed => exact configFind_eq_none.mpr fun inside => kept ⟨inside, listed⟩
      · rfl
    rw [configGet_of_missing missing, or_iff_right kept]

/-- Where the settings that are written back can be written as they are, what `set` has done is
read back exactly if the value is read as it was given and nothing is crowded out. -/
theorem set_is_read_back_iff {file new : Bytes} {key value : Arg}
    (plain : ∀ pair ∈ untouched (normalizeCliKey key.bytes) (configLoad file), pair.Plain)
    (done : cmdSet file key value = some new) :
    ReadBack file new key value ↔ Fits file key value := by
  obtain ⟨name, writable, rfl⟩ := cmdSet_eq_some done
  have few : (configLoad file).length ≤ maxConfigEntries := by
    rw [configLoad_eq, List.length_take]
    exact Nat.min_le_left ..
  unfold ReadBack Fits
  rw [← and_assoc]
  refine and_congr (configGet_name_iff plain few name writable) ?_
  apply forall₄_congr
  intro other text different set
  exact configGet_other_iff plain few name writable different set

def argOf (text : String) (clean : 0 ∉ literal text) : Arg := ⟨literal text, clean⟩

/-- A file with a comment, two sections, a key the tool does not know and a repeated one, whose
first value could not be written back. -/
def sampleFile : Bytes :=
  literal "# site\n[tpm]\nrequire_tpm = yes\r \n[general]\nlog_level=debug\r\nstate_dir =  /srv/hiya \nmotd = a = b ; c\n[tpm]\nrequire_tpm = no\n"

theorem set_is_read_back_sample : ∃ new, cmdSet sampleFile (argOf "tpm.require" (by decide))
    (argOf "true" (by decide)) = some new ∧
    ReadBack sampleFile new (argOf "tpm.require" (by decide)) (argOf "true" (by decide)) := by
  have written : ∀ pair ∈ untouched (literal "tpm.require_tpm") (configLoad sampleFile), PlainKey pair.key ∧
    PlainValue pair.value ∧ 0 ∉ pair.value ∧ newline ∉ pair.value ∧
      pair.value.rdropWhile isLineEnd = pair.value := by decide +kernel
  have kept : ∀ pair ∈ settings sampleFile, Kept sampleFile pair.key := by decide +kernel
  have known : PlainValue (literal "true") ∧ literal "tpm.require_tpm" ∈ (configLoad sampleFile).map KvPair.key ∧
      sectionOf (literal "tpm.require_tpm") ∈ sectionsOf (configLoad sampleFile) := by decide +kernel
  have accepted : (cmdSet sampleFile (argOf "tpm.require" (by decide)) (argOf "true" (by decide))).isSome := by decide +kernel
  obtain ⟨new, done⟩ := Option.isSome_iff_exists.mp accepted
  have name : normalizeCliKey (argOf "tpm.require" (by decide)).bytes = literal "tpm.require_tpm" := by decide +kernel
  refine ⟨new, done, (set_is_read_back_iff (fun pair inside => ?_) done).mpr ⟨known.1, .inl ?_, fun other text _ found => ?_⟩⟩
  · rw [name] at inside
    obtain ⟨key, read, clean, single, ended⟩ := written pair inside
    exact ⟨⟨key, ⟨clean, single, ended, read.length⟩⟩, read⟩
  · rw [name]
    exact ⟨.inl known.2.1, .inl known.2.2⟩
  · obtain ⟨pair, inside, same⟩ := List.mem_map.mp (mem_keys_of_found found)
    rw [← same]
    exact .inl (kept pair inside)

/-- The empty value is accepted, written, and passed over by the reader: the default is back. -/
theorem empty_value_is_lost : ∃ new, cmdSet [] (argOf "general.state_dir" (by decide)) (argOf "" (by decide)) = some new ∧
    cmdGet new (argOf "general.state_dir" (by decide)) = some (literal "/var/lib/hiya") ∧
    ¬ ReadBack [] new (argOf "general.state_dir" (by decide)) (argOf "" (by decide)) := by
  refine ⟨_, rfl, by decide +kernel, ?_⟩
  intro ⟨given, _⟩
  revert given
  decide +kernel

end Hiya.Tools
