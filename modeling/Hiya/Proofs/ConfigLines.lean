import Hiya.Library.Grouping
import Hiya.Tools.HiyaConfig

/-! The lines of a configuration file. A table that was written is read back pair by pair:
the sections come in the order in which the table names them, and each pair comes back with
the blanks around its value gone. -/

namespace Hiya.Tools
open Library

theorem mem_takeWhile_ne {byte : UInt8} {text rest : Bytes} (absent : byte ∉ text) :
    (text ++ byte :: rest).takeWhile (· ≠ byte) = text ∧ (text ++ byte :: rest).dropWhile (· ≠ byte) = byte :: rest := by
  have each : ∀ other ∈ text, decide (other ≠ byte) = true :=
    fun other inside => decide_eq_true fun same => absent (same ▸ inside)
  constructor
  · rw [List.takeWhile_append_of_pos each, List.takeWhile_cons_of_neg (by simp), List.append_nil]
  · rw [List.dropWhile_append_of_pos each, List.dropWhile_cons_of_neg (by simp)]

private theorem readLine_section {name : Bytes} (clean : 0 ∉ name) (closed : bracketClose ∉ name) (short : name.length ≤ 63) :
    readLine (bracketOpen :: (name ++ [bracketClose]) ++ [newline]) = .sectionHeader name := by
  have zero : 0 ∉ bracketOpen :: (name ++ [bracketClose]) := by
    intro inside
    obtain first | inside := List.mem_cons.mp inside
    · cases first
    obtain inside | last := List.mem_append.mp inside
    · exact clean inside
    · cases List.mem_singleton.mp last
  have kept : (bracketOpen :: (name ++ [bracketClose])).rdropWhile isLineEnd = bracketOpen :: (name ++ [bracketClose]) := by
    rw [← List.cons_append]
    exact List.rdropWhile_concat_neg _ _ _ (by decide)
  unfold readLine
  rw [strip_line zero, kept]
  have start : (bracketOpen :: (name ++ [bracketClose])).dropWhile isBlank = bracketOpen :: (name ++ [bracketClose]) :=
    List.dropWhile_cons_of_neg (by decide)
  rw [start]
  dsimp only
  have inside : bracketClose ∈ bracketOpen :: (name ++ [bracketClose]) := List.mem_cons_of_mem _ List.mem_concat_self
  rw [if_neg (by decide), if_pos rfl, if_pos inside, (mem_takeWhile_ne closed).1, List.take_of_length_le short]

structure PlainRest (rest : Bytes) : Prop where
  start : ∃ first tail, rest = first :: tail ∧ isBlank first = false ∧ first ≠ hashSign ∧ first ≠ semicolon ∧
    first ≠ bracketOpen
  single : equalSign ∉ rest
  stop : trimEnd rest = rest

private theorem readLine_pair {rest value : Bytes} (plain : PlainRest rest) (clean : 0 ∉ rest ++ value)
    (ended : value.rdropWhile isLineEnd = value) :
    readLine (rest ++ literal " = " ++ value ++ [newline]) = if trimmed value = [] then .other
    else .pair rest (trimmed value) := by
  obtain ⟨⟨first, tail, rfl, solid, noHash, noSemicolon, noBracket⟩, single, stop⟩ := plain
  have sign : literal " = " = [32, equalSign, 32] := by decide
  rw [sign]
  have zero : 0 ∉ (first :: tail) ++ [32, equalSign, 32] ++ value := by
    intro inside
    simp only [List.mem_append] at inside clean
    obtain (inside | inside) | inside := inside
    · exact clean (.inl inside)
    · revert inside
      decide
    · exact clean (.inr inside)
  have kept : ((first :: tail) ++ [32, equalSign, 32] ++ value).rdropWhile isLineEnd = (first :: tail) ++
    [32, equalSign, 32] ++ value := by
    refine rdropWhile_append ?_ ended
    have last : (first :: tail) ++ [32, equalSign, 32] = (first :: tail ++ [32, equalSign]) ++ [32] := by simp
    rw [last]
    exact List.rdropWhile_concat_neg _ _ _ (by decide)
  have start : ((first :: tail) ++ [32, equalSign, 32] ++ value).dropWhile isBlank = (first :: tail) ++
    [32, equalSign, 32] ++ value :=
    List.dropWhile_cons_of_neg (by rw [solid]; exact Bool.false_ne_true)
  have shape : (first :: tail) ++ [32, equalSign, 32] ++ value = (first :: tail ++ [32]) ++
    equalSign :: (32 :: value) := by simp
  have absent : equalSign ∉ first :: tail ++ [32] := by
    intro inside
    obtain inside | last := List.mem_append.mp inside
    · exact single inside
    · cases List.mem_singleton.mp last
  have inside : equalSign ∈ (first :: tail) ++ [32, equalSign, 32] ++ value := by
    rw [shape]
    exact List.mem_append_right _ List.mem_cons_self
  have key : trimEnd (first :: tail ++ [32]) = first :: tail := by
    unfold trimEnd
    rw [List.rdropWhile_concat_pos _ _ _ rfl]
    exact stop
  have blank : trimmed (32 :: value) = trimmed value := by
    unfold trimmed
    rw [List.dropWhile_cons_of_pos rfl]
  unfold readLine
  rw [strip_line zero, kept, start]
  have split : ((first :: tail ++ [32]) ++ equalSign :: (32 :: value)).takeWhile (· ≠ equalSign) = first :: tail ++ [32] ∧
      ((first :: tail ++ [32]) ++ equalSign :: (32 :: value)).dropWhile (· ≠ equalSign) = equalSign :: (32 :: value) :=
        mem_takeWhile_ne absent
  rw [← shape] at split
  change (if first = hashSign ∨ first = semicolon then Line.other else if first = bracketOpen then _
    else if equalSign ∈ (first :: tail) ++ [32, equalSign, 32] ++ value then
      if trimEnd (((first :: tail) ++ [32, equalSign, 32] ++ value).takeWhile (· ≠ equalSign)) = [] ∨
        trimmed ((((first :: tail) ++ [32, equalSign, 32] ++ value).dropWhile (· ≠ equalSign)).drop 1) = [] then .other
      else .pair (trimEnd (((first :: tail) ++ [32, equalSign, 32] ++ value).takeWhile (· ≠ equalSign)))
        (trimmed ((((first :: tail) ++ [32, equalSign, 32] ++ value).dropWhile (· ≠ equalSign)).drop 1))
    else .other) = _
  rw [if_neg (not_or.mpr ⟨noHash, noSemicolon⟩), if_neg noBracket, if_pos inside, split.1, split.2, key, List.drop_one,
    List.tail_cons, blank]
  exact if_congr ⟨fun either => either.resolve_left (List.cons_ne_nil _ _), .inr⟩ rfl rfl

def settingsOf : Bytes → List Bytes → List KvPair
  | _, [] => []
  | name, line :: lines =>
    match readLine line with
    | .other => settingsOf name lines
    | .sectionHeader other => settingsOf other lines
    | .pair key value => ⟨fullKey name key, value.take 255⟩ :: settingsOf name lines

/-- The settings of a file, however many there are. -/
def settings (file : Bytes) : List KvPair := settingsOf [] (fgetsAll 511 [] file)

private theorem foldl_next (lines : List Bytes) : ∀ (name : Bytes) (entries : List KvPair),
    entries.length ≤ maxConfigEntries →
    (lines.foldl Loading.next ⟨name, entries⟩).entries = (entries ++ settingsOf name lines).take maxConfigEntries := by
  induction lines with
  | nil =>
    intro name entries few
    rw [settingsOf, List.append_nil, List.take_of_length_le few]
    rfl
  | cons line lines ih =>
    intro name entries few
    have step : Loading.next ⟨name, entries⟩ line = match readLine line with
        | .other => ⟨name, entries⟩
        | .sectionHeader other => ⟨other, entries⟩
        | .pair key value => if entries.length ≥ maxConfigEntries then ⟨name, entries⟩
          else ⟨name, entries ++ [⟨fullKey name key, value.take 255⟩]⟩ := rfl
    rw [List.foldl_cons, step, settingsOf]
    cases readLine line with
    | other => exact ih name entries few
    | sectionHeader other => exact ih other entries few
    | pair key value =>
      dsimp only
      by_cases full : entries.length ≥ maxConfigEntries
      · have same : entries.length = maxConfigEntries := Nat.le_antisymm few full
        rw [if_pos full, ih name entries few, ← same, List.take_left, List.take_left]
      · have fits : (entries ++ [KvPair.mk (fullKey name key) (value.take 255)]).length ≤ maxConfigEntries := by
          rw [List.length_append, List.length_singleton]
          omega
        rw [if_neg full, ih name _ fits, List.append_assoc, List.singleton_append]

/-- The table holds the first settings of the file. -/
theorem configLoad_eq (file : Bytes) : configLoad file = (settings file).take maxConfigEntries :=
    foldl_next _ [] [] (Nat.zero_le _)

structure PlainKey (key : Bytes) : Prop where
  dotted : dot ∈ key
  named : sectionOf key ≠ []
  short : (sectionOf key).length ≤ 62
  closed : bracketClose ∉ sectionOf key
  rest : PlainRest (restOf key)
  clean : 0 ∉ key
  single : newline ∉ key
  length : key.length ≤ 127

structure Writable (value : Bytes) : Prop where
  clean : 0 ∉ value
  single : newline ∉ value
  ended : value.rdropWhile isLineEnd = value
  length : value.length ≤ 255

theorem key_eq {key : Bytes} (dotted : dot ∈ key) : key = sectionOf key ++ dot :: restOf key := by
  unfold sectionOf restOf
  have some : key.dropWhile (· ≠ dot) ≠ [] := by
    intro none
    have all := List.dropWhile_eq_nil_iff.mp none dot dotted
    simp at all
  obtain ⟨first, tail, shape⟩ := List.exists_cons_of_ne_nil some
  have stop : first = dot := by
    have head := List.head_dropWhile_not (fun byte => decide (byte ≠ dot)) some
    simp only [shape, List.head_cons, decide_eq_false_iff_not, ne_eq, not_not] at head
    exact head
  have parts := List.takeWhile_append_dropWhile (p := fun byte => decide (byte ≠ dot)) (l := key)
  rw [shape, stop] at parts
  rw [shape]
  exact parts.symm

def reread (pair : KvPair) : List KvPair := if trimmed pair.value = [] then [] else [⟨pair.key, trimmed pair.value⟩]

def ended (lines : List Bytes) : List Bytes := lines.map (· ++ [newline])

private theorem readLine_describe (key line : Bytes) (inside : line ∈ describe key) : readLine (line ++ [newline]) =
    .other ∧ newline ∉ line ∧ line.length < 511 := by
  have all : ∀ entry ∈ configDefaults, readLine (literal "# " ++ entry.description ++ [newline]) = .other ∧
      newline ∉ literal "# " ++ entry.description ∧ (literal "# " ++ entry.description).length < 511 := by decide +kernel
  unfold describe at inside
  split at inside
  next entry found =>
    cases List.mem_singleton.mp inside
    exact all entry (List.mem_of_find?_eq_some found)
  · cases inside

private theorem readLine_header (line : Bytes) (inside : line ∈ headerLines) : readLine (line ++ [newline]) = .other ∧
    newline ∉ line ∧ line.length < 511 := by
  have all : ∀ line ∈ headerLines, readLine (line ++ [newline]) = .other ∧ newline ∉ line ∧ line.length < 511 :=
    by decide +kernel
  exact all line inside

private theorem settingsOf_others {lines : List Bytes} (others : ∀ line ∈ lines, readLine (line ++ [newline]) = .other)
    (name : Bytes)
    (more : List Bytes) : settingsOf name (ended lines ++ more) = settingsOf name more := by
  induction lines with
  | nil => rfl
  | cons line lines ih =>
    change settingsOf name ((line ++ [newline]) :: (ended lines ++ more)) = _
    rw [settingsOf, others line List.mem_cons_self]
    exact ih fun line inside => others line (List.mem_cons_of_mem _ inside)

private theorem settingsOf_pair {pair : KvPair} (plain : PlainKey pair.key) (writable : Writable pair.value)
    (more : List Bytes) :
    settingsOf (sectionOf pair.key) (ended (pairLines pair) ++ more) = reread pair ++
    settingsOf (sectionOf pair.key) more := by
  have shape : ended (pairLines pair) ++ more =
      ended (describe pair.key) ++ ((restOf pair.key ++ literal " = " ++ pair.value ++ [newline]) :: more) := by
    unfold ended pairLines
    rw [List.map_append, List.append_assoc]
    rfl
  have whole := key_eq plain.dotted
  have clean : 0 ∉ restOf pair.key ++ pair.value := by
    intro inside
    obtain inside | inside := List.mem_append.mp inside
    · apply plain.clean
      rw [whole]
      exact List.mem_append_right _ (List.mem_cons_of_mem _ inside)
    · exact writable.clean inside
  rw [shape, settingsOf_others fun line inside => (readLine_describe _ _ inside).1, settingsOf,
    readLine_pair plain.rest clean writable.ended]
  unfold reread
  by_cases none : trimmed pair.value = []
  · rw [if_pos none, if_pos none]
    rfl
  · rw [if_neg none, if_neg none]
    have key : fullKey (sectionOf pair.key) (restOf pair.key) = pair.key := by
      unfold fullKey
      rw [if_pos plain.named, ← whole, List.take_of_length_le plain.length]
    have value : (trimmed pair.value).take 255 = trimmed pair.value :=
      List.take_of_length_le (Nat.le_trans (length_trimmed_le _) writable.length)
    dsimp only
    rw [key, value]
    rfl

structure KvPair.Written (pair : KvPair) : Prop where
  key : PlainKey pair.key
  value : Writable pair.value

private theorem settingsOf_pairs {pairs : List KvPair} {name : Bytes} (written : ∀ pair ∈ pairs, pair.Written)
    (here : ∀ pair ∈ pairs, sectionOf pair.key = name)
    (more : List Bytes) : settingsOf name (ended (pairs.flatMap pairLines) ++ more) = pairs.flatMap reread ++
    settingsOf name more := by
  induction pairs with
  | nil => rfl
  | cons pair pairs ih =>
    have rest := ih (fun pair inside => written pair (List.mem_cons_of_mem _ inside))
      (fun pair inside => here pair (List.mem_cons_of_mem _ inside))
    have first := written pair List.mem_cons_self
    have shape : ended ((pair :: pairs).flatMap pairLines) ++ more = ended (pairLines pair) ++
      (ended (pairs.flatMap pairLines) ++ more) := by
      unfold ended
      rw [List.flatMap_cons, List.map_append, List.append_assoc]
    rw [shape, ← here pair List.mem_cons_self, settingsOf_pair first.key first.value, here pair List.mem_cons_self,
      rest, List.flatMap_cons,
      List.append_assoc]

def pairSection (pair : KvPair) : Bytes := sectionOf pair.key

private theorem settingsOf_section {table : List KvPair} (written : ∀ pair ∈ table, pair.Written) {name : Bytes}
    (named : name ∈ table.map pairSection)
    (before : Bytes) (more : List Bytes) :
    settingsOf before (ended (sectionLines table name) ++ more) = (groupOf pairSection table name).flatMap reread ++
    settingsOf name more := by
  obtain ⟨source, inside, rfl⟩ := List.mem_map.mp named
  have plain := (written source inside).key
  have clean : 0 ∉ pairSection source := fun zero => plain.clean ((List.takeWhile_prefix _).subset zero)
  have group : (table.filter fun pair => dot ∈ pair.key ∧ sectionOf pair.key = pairSection source) =
    groupOf pairSection table (pairSection source) := by
    apply List.filter_congr
    intro pair member
    exact decide_eq_decide.mpr ⟨And.right, fun same => ⟨(written pair member).key.dotted, same⟩⟩
  have shape : ended (sectionLines table (pairSection source)) ++ more =
    (bracketOpen :: (pairSection source ++ [bracketClose]) ++ [newline]) ::
      (ended ((groupOf pairSection table (pairSection source)).flatMap pairLines) ++ ([newline] :: more)) := by
    unfold ended sectionLines
    rw [group]
    simp only [List.map_append, List.map_cons, List.map_nil, List.append_assoc, List.cons_append, List.nil_append]
  rw [shape, settingsOf, readLine_section clean plain.closed (Nat.le_succ_of_le plain.short)]
  dsimp only
  have blank : settingsOf (pairSection source) ([newline] :: more) = settingsOf (pairSection source) more := by
    rw [settingsOf, show readLine [newline] = .other from by decide]
  have members : ∀ pair ∈ groupOf pairSection table (pairSection source), pair ∈ table ∧
    sectionOf pair.key = pairSection source := by
    intro pair member
    obtain ⟨member, same⟩ := List.mem_filter.mp member
    exact ⟨member, of_decide_eq_true same⟩
  rw [settingsOf_pairs (fun pair member => written pair (members pair member).1)
    (fun pair member => (members pair member).2), blank]

/-- The sections of a table, one after the other. -/
theorem settingsOf_sections {table : List KvPair} (written : ∀ pair ∈ table, pair.Written) {names : List Bytes}
    (named : ∀ name ∈ names, name ∈ table.map pairSection) (before : Bytes) :
    settingsOf before (ended (names.flatMap (sectionLines table))) = (regrouped pairSection names table).flatMap reread := by
  induction names generalizing before with
  | nil => rfl
  | cons name names ih =>
    have shape : ended ((name :: names).flatMap (sectionLines table)) = ended (sectionLines table name) ++
      ended (names.flatMap (sectionLines table)) := by
      unfold ended
      rw [List.flatMap_cons, List.map_append]
    rw [shape, settingsOf_section written (named name List.mem_cons_self),
      ih fun name inside => named name (List.mem_cons_of_mem _ inside)]
    unfold regrouped
    rw [List.flatMap_cons, List.flatMap_append]

private theorem collectSections_eq {table : List KvPair} (written : ∀ pair ∈ table, pair.Written) :
    collectSections table = firstKeys pairSection 32 table := by
  have all : (table.filter fun pair => dot ∈ pair.key) = table :=
    List.filter_eq_self.mpr fun pair inside => decide_eq_true (written pair inside).key.dotted
  unfold collectSections firstKeys
  rw [all]
  apply List.foldl_ext
  intro sections pair inside
  dsimp only
  rw [List.take_of_length_le (Nat.le_succ_of_le (written pair inside).key.short)]
  have absent : (∀ old ∈ sections, old ≠ sectionOf pair.key) ↔ pairSection pair ∉ sections :=
    ⟨fun other inside => other _ inside rfl,
      fun missing old inside same => missing (show sectionOf pair.key ∈ sections from same ▸ inside)⟩
  by_cases new : pairSection pair ∉ sections ∧ sections.length < 32
  · rw [if_pos new, if_pos ⟨absent.mpr new.1, new.2⟩]
    rfl
  · rw [if_neg new, if_neg fun old => new ⟨absent.mp old.1, old.2⟩]

private theorem short_pairLines {pair : KvPair} (written : pair.Written) {line : Bytes} (inside : line ∈ pairLines pair) :
    newline ∉ line ∧ line.length < 511 := by
  obtain comment | last := List.mem_append.mp inside
  · exact (readLine_describe _ _ comment).2
  · cases List.mem_singleton.mp last
    have whole := key_eq written.key.dotted
    have rest : newline ∉ restOf pair.key := by
      intro inside
      apply written.key.single
      rw [whole]
      exact List.mem_append_right _ (List.mem_cons_of_mem _ inside)
    have length := congrArg List.length whole
    rw [List.length_append, List.length_cons] at length
    have longest := written.key.length
    have value := written.value.length
    have sign : (literal " = ").length = 3 ∧ newline ∉ literal " = " := by decide
    constructor
    · simp only [List.mem_append, not_or]
      exact ⟨⟨rest, sign.2⟩, written.value.single⟩
    · rw [List.length_append, List.length_append, sign.1]
      omega

private theorem short_lines {table : List KvPair} (written : ∀ pair ∈ table, pair.Written) {line : Bytes}
    (inside : line ∈ headerLines ++ (collectSections table).flatMap (sectionLines table)) : newline ∉ line ∧
    line.length < 511 := by
  obtain header | inside := List.mem_append.mp inside
  · exact (readLine_header line header).2
  obtain ⟨name, collected, inside⟩ := List.mem_flatMap.mp inside
  rw [collectSections_eq written] at collected
  obtain ⟨source, member, rfl⟩ := List.mem_map.mp (mem_of_mem_firstKeys _ collected)
  have plain := (written source member).key
  have single : newline ∉ pairSection source := fun inside => plain.single ((List.takeWhile_prefix _).subset inside)
  have short : (pairSection source).length ≤ 62 := plain.short
  unfold sectionLines at inside
  rw [List.mem_append, List.mem_append] at inside
  obtain (first | inside) | last := inside
  · cases List.mem_singleton.mp first
    constructor
    · intro inside
      obtain start | inside := List.mem_cons.mp inside
      · cases start
      obtain inside | stop := List.mem_append.mp inside
      · exact single inside
      · cases List.mem_singleton.mp stop
    · rw [List.length_cons, List.length_append, List.length_singleton]
      omega
  · obtain ⟨pair, found, inside⟩ := List.mem_flatMap.mp inside
    exact short_pairLines (written pair (List.mem_filter.mp found).1) inside
  · cases List.mem_singleton.mp last
    exact ⟨List.not_mem_nil, by decide⟩

theorem settings_save {table : List KvPair} (written : ∀ pair ∈ table, pair.Written) :
    settings (configSave table) = (regrouped pairSection (firstKeys pairSection 32 table) table).flatMap reread := by
  unfold settings configSave
  rw [fgetsAll_lines (fun line inside => (short_lines written inside).1)
    (fun line inside => (short_lines written inside).2), collectSections_eq written,
    List.map_append]
  rw [show headerLines.map (· ++ [newline]) = ended headerLines from rfl,
    settingsOf_others fun line inside => (readLine_header line inside).1]
  exact settingsOf_sections written (fun name inside => mem_of_mem_firstKeys _ inside) []

end Hiya.Tools
