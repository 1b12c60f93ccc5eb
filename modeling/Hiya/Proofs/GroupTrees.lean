import Hiya.Daemon.ReadMethods
import Hiya.Library.Forest
import Hiya.Library.JsonParts
import Hiya.Proofs.AuditJson
import Hiya.Proofs.EntryStoreFrame

/-! When the groups of a vault are answered with a JSON document. Every group is written once,
whatever the parents are. A comma is written for each group that is to follow, but a group
that has its place elsewhere writes nothing behind it. -/

namespace Hiya.Daemon.Vaults
open Library Pm Pm.Store
open Fido2 (ascii)
open Json (Value Lexes)

def blankGroup : Group where
  id := .empty
  parentId := .empty
  title := .empty
  iconId := .empty
  color := .empty
  notes := .empty
  createdAtMs := 0
  updatedAtMs := 0
  accessedAtMs := 0
  customDataCbor := []
  unknownFields := []

def groupAt (payload : Payload) (index : Nat) : Group := payload.groups.getD index blankGroup

def groupValue (payload : Payload) (group : Group) (children : List Value) : Value := .object [
  (ascii "id", .text group.id.bytes),
  (ascii "parent_id", .text group.parentId.bytes),
  (ascii "title", .text group.title.bytes),
  (ascii "notes", .text group.notes.bytes),
  (ascii "color", .text group.color.bytes),
  (ascii "entry_count", .number (Audit.unsigned (payloadCountEntriesForGroup payload group.id))),
  (ascii "children", .array children)]

def forestJson (payload : Payload) : Forest Nat → List Value
  | .nil => []
  | .node index below rest => groupValue payload (groupAt payload index) (forestJson payload below) :: forestJson payload rest

def Lists (payload : Payload) (text : Bytes) : Prop :=
  ∃ forest : Forest Nat, forest.points.Perm (List.range payload.groups.length) ∧
    Json.Document text (.array (forestJson payload forest))

def childIndices (payload : Payload) (index : Nat) : List Nat :=
  (List.range payload.groups.length).filter (isChild payload (groupAt payload index).id)

def rootIndices (payload : Payload) : List Nat := (List.range payload.groups.length).filter (isRoot payload)

def groupTexts (group : Group) : List Bytes :=
  [group.id.bytes, group.parentId.bytes, group.title.bytes, group.notes.bytes, group.color.bytes]

def Legible (group : Group) : Prop := ∀ text ∈ groupTexts group, Json.Characters text

/-- The texts are made of characters, and no walk over the groups comes to one that is written elsewhere. -/
structure Listable (payload : Payload) : Prop where
  legible : ∀ group ∈ payload.groups, Legible group
  unbroken : Unbroken (childIndices payload) (rootIndices payload) (List.range payload.groups.length)

variable {payload : Payload}

theorem isChild_iff {groupId : CStr} {index : Nat} (inside : index < payload.groups.length) :
    isChild payload groupId index = true ↔ (groupAt payload index).parentId ≠ .empty ∧
    (groupAt payload index).parentId = groupId := by
  simp [isChild, groupAt, inside]

theorem graph (payload : Payload) : Graph (childIndices payload) (rootIndices payload)
    (List.range payload.groups.length) where
  sorted := List.pairwise_lt_range
  roots := List.filter_sublist.subset
  inside _ _ := List.filter_sublist.subset
  distinct _ _ := List.nodup_range.filter _
  alike first _ second _ child one two := by
    obtain ⟨inside, one⟩ := List.mem_filter.mp one
    obtain ⟨_, two⟩ := List.mem_filter.mp two
    have within := List.mem_range.mp inside
    unfold childIndices
    rw [← ((isChild_iff within).mp one).2, ← ((isChild_iff within).mp two).2]

def spell : Json.Token → Bytes
  | .punct byte => [byte]
  | .word letters => letters
  | .number letters => letters
  | .text bytes => 0x22 :: bytes.flatMap jsonEscape ++ [0x22]

def spelled (tokens : List Json.Token) : Bytes := tokens.flatMap spell

def heading (payload : Payload) (group : Group) : List Json.Token := [
  .punct Json.braceOpen, .text (ascii "id"), .punct Json.colon, .text group.id.bytes,
  .punct Json.comma, .text (ascii "parent_id"), .punct Json.colon, .text group.parentId.bytes,
  .punct Json.comma, .text (ascii "title"), .punct Json.colon, .text group.title.bytes,
  .punct Json.comma, .text (ascii "notes"), .punct Json.colon, .text group.notes.bytes,
  .punct Json.comma, .text (ascii "color"), .punct Json.colon, .text group.color.bytes,
  .punct Json.comma, .text (ascii "entry_count"), .punct Json.colon,
    .number (Audit.unsigned (payloadCountEntriesForGroup payload group.id)),
  .punct Json.comma, .text (ascii "children"), .punct Json.colon]

def listed (tokens : List Json.Token) : List Json.Token := .punct bracketOpen :: tokens ++ [.punct bracketClose]

/-- What is written for the places of a list, where the flag tells whether none was before. -/
def slotTokens (payload : Payload) : Bool → Slots Nat → List Json.Token
  | _, .nil => []
  | first, .gap rest => (if first then [] else [.punct Json.comma]) ++ slotTokens payload false rest
  | first, .node index below rest =>
    (if first then [] else [.punct Json.comma]) ++
      (heading payload (groupAt payload index) ++ listed (slotTokens payload true below) ++
      [.punct Json.braceClose]) ++ slotTokens payload false rest

theorem spelled_append (first second : List Json.Token) : spelled (first ++ second) = spelled first ++
    spelled second := List.flatMap_append

theorem jsonMember_spelled {front : String} {rest : Bytes} {tokens more : List Json.Token} (value : CStr)
    (begins : ascii front = spelled tokens)
    (ends : rest = spelled more) : jsonMember front value rest = spelled (tokens ++ .text value.bytes :: more) := by
  rw [jsonMember, begins, ends, spelled_append, List.append_assoc]
  rfl

theorem groupOpening_eq (payload : Payload) (group : Group) :
    groupOpening payload group = spelled (heading payload group ++ [.punct bracketOpen]) := by
  have id : ascii "\x7b\"id\":" = spelled [.punct Json.braceOpen, .text (ascii "id"), .punct Json.colon] := by decide +kernel
  have parent : ascii ",\"parent_id\":" = spelled [.punct Json.comma, .text (ascii "parent_id"), .punct Json.colon] :=
    by decide +kernel
  have title : ascii ",\"title\":" = spelled [.punct Json.comma, .text (ascii "title"), .punct Json.colon] :=
    by decide +kernel
  have notes : ascii ",\"notes\":" = spelled [.punct Json.comma, .text (ascii "notes"), .punct Json.colon] :=
    by decide +kernel
  have color : ascii ",\"color\":" = spelled [.punct Json.comma, .text (ascii "color"), .punct Json.colon] :=
    by decide +kernel
  have count : ascii ",\"entry_count\":" = spelled [.punct Json.comma, .text (ascii "entry_count"),
    .punct Json.colon] := by decide +kernel
  have children : ascii ",\"children\":[" = spelled [.punct Json.comma, .text (ascii "children"), .punct Json.colon,
    .punct bracketOpen] := by
    decide +kernel
  have number (value : Nat) (more : List Json.Token) : spelled (.number (Audit.unsigned value) :: more) =
    Audit.unsigned value ++ spelled more := rfl
  have behind (value : Nat) : ascii ",\"entry_count\":" ++ Audit.unsigned value ++ ascii ",\"children\":[" =
      spelled ([.punct Json.comma, .text (ascii "entry_count"), .punct Json.colon] ++ .number (Audit.unsigned value) ::
        [.punct Json.comma, .text (ascii "children"), .punct Json.colon, .punct bracketOpen]) := by
    rw [spelled_append, number, ← count, ← children, List.append_assoc]
  exact jsonMember_spelled group.id id <| jsonMember_spelled group.parentId parent <| jsonMember_spelled group.title title <|
    jsonMember_spelled group.notes notes <| jsonMember_spelled group.color color <| behind _

theorem slotTokens_append {first : Bool} {slots others : Slots Nat} :
    slotTokens payload first (slots.append others) = slotTokens payload first slots ++
    slotTokens payload (first && slots.size = 0) others := by
  induction slots generalizing first with
  | nil => simp [Slots.append, slotTokens, Slots.size]
  | gap rest ih => simp [Slots.append, slotTokens, ih, Slots.size]
  | node index below rest _ ih => simp [Slots.append, slotTokens, ih, Slots.size]

/-- The comma is in front of the first place, whatever is there. -/
theorem slotTokens_false {slots : Slots Nat} (some : slots.size ≠ 0) : slotTokens payload false slots =
    .punct Json.comma :: slotTokens payload true slots := by
  cases slots with
  | nil => exact absurd rfl some
  | gap rest => rfl
  | node index below rest => rfl

/-- The marks are those of the groups that were entered. -/
structure Tracks (payload : Payload) (seen : List Nat) (emitted : List Bool) : Prop where
  length : emitted.length = payload.groups.length
  marks : ∀ index, emitted.getD index false = true ↔ index ∈ seen
  distinct : seen.Nodup

namespace Tracks
variable {seen : List Nat} {emitted : List Bool} {index : Nat}

theorem inside (tracks : Tracks payload seen emitted) : seen ⊆ List.range payload.groups.length := by
  intro index entered
  have marked := (tracks.marks index).mpr entered
  rw [List.mem_range, ← tracks.length]
  by_contra outside
  rw [List.getD_eq_getElem?_getD, List.getElem?_eq_none (Nat.le_of_not_lt outside)] at marked
  cases marked

theorem length_le (tracks : Tracks payload seen emitted) : seen.length ≤ payload.groups.length := by
  have bound := (tracks.distinct.subperm tracks.inside).length_le
  rwa [List.length_range] at bound

theorem enter (tracks : Tracks payload seen emitted) (within : index < payload.groups.length) (new : index ∉ seen) :
    Tracks payload (index :: seen) (emitted.set index true) where
  length := by rw [List.length_set, tracks.length]
  marks other := by
    rw [List.mem_cons, ← tracks.marks other, List.getD_eq_getElem?_getD, List.getD_eq_getElem?_getD, List.getElem?_set]
    have room : index < emitted.length := tracks.length ▸ within
    by_cases same : index = other
    · simp [same, same ▸ room]
    · simp [same, Ne.symm same]
  distinct := List.nodup_cons.mpr ⟨new, tracks.distinct⟩

theorem blank (payload : Payload) : Tracks payload [] (List.replicate payload.groups.length false) where
  length := List.length_replicate
  marks index := by simp [List.getD_eq_getElem?_getD, List.getElem?_replicate]; split <;> simp
  distinct := List.nodup_nil

end Tracks

def Prints (payload : Payload) (base : Nat) (append : Nat → Printing → Printing) : Prop :=
  ∀ ⦃seen : List Nat⦄ ⦃printing : Printing⦄ ⦃index : Nat⦄, Tracks payload seen printing.emitted →
    index < payload.groups.length → base ≤ seen.length →
    ∃ slots last, Visits (childIndices payload) seen [index] slots last ∧
      Tracks payload last (append index printing).emitted ∧
      (append index printing).json = printing.json ++ spelled (slotTokens payload true slots)

section
variable {base : Nat} {append : Nat → Printing → Printing} {seen : List Nat} {printing : Printing} {first : Bool}
    {indices : List Nat}

/-- The comma belongs to the place, whatever is appended behind it. -/
theorem Prints.place (prints : Prints payload base append) (first : Bool) {index : Nat}
    (tracks : Tracks payload seen printing.emitted)
    (within : index < payload.groups.length) (many : base ≤ seen.length) :
    ∃ slots last, Visits (childIndices payload) seen [index] slots last ∧
      Tracks payload last (append index (if first then printing else printing.write (ascii ","))).emitted ∧
      (append index (if first then printing else printing.write (ascii ","))).json = printing.json ++
      spelled (slotTokens payload first slots) := by
  cases first with
  | true => exact prints tracks within many
  | false =>
    have moved : Tracks payload seen (printing.write (ascii ",")).emitted := tracks
    obtain ⟨slots, last, visits, kept, json⟩ := prints moved within many
    have some : slots.size ≠ 0 := visits.size_eq ▸ Nat.one_ne_zero
    refine ⟨slots, last, visits, kept, json.trans ?_⟩
    rw [slotTokens_false some]
    exact List.append_assoc printing.json (ascii ",") _

section
variable {passed : Nat → Printing → Bool} {index : Nat}

theorem appendEach_passed (beyond : passed index printing = true) :
    appendEach passed append (index :: indices) printing first = appendEach passed append indices printing first := by
  simp [appendEach, beyond]

theorem appendEach_appended (here : passed index printing = false) :
    appendEach passed append (index :: indices) printing first =
      appendEach passed append indices (append index (if first then printing else printing.write (ascii ","))) false := by
  simp [appendEach, here]

end

theorem length_le_visits {points last : List Nat} {slots : Slots Nat}
    (visits : Visits (childIndices payload) seen points slots last) :
    seen.length ≤ last.length := by
  rw [visits.perm.length_eq, List.length_append]
  exact Nat.le_add_left _ _

/-- A loop that passes over the same groups whatever is printed. -/
theorem Prints.loop (prints : Prints payload base append) (wanted : Nat → Bool) (first : Bool)
    (within : ∀ index ∈ indices, index < payload.groups.length)
    (tracks : Tracks payload seen printing.emitted) (many : base ≤ seen.length) :
    ∃ slots last, Visits (childIndices payload) seen (indices.filter wanted) slots last ∧
      Tracks payload last (appendEach (fun index _ => !wanted index) append indices printing first).1.emitted ∧
      (appendEach (fun index _ => !wanted index) append indices printing first).1.json = printing.json ++
      spelled (slotTokens payload first slots) ∧
      (appendEach (fun index _ => !wanted index) append indices printing first).2 = (first && slots.size = 0) := by
  induction indices generalizing seen printing first with
  | nil => exact ⟨.nil, seen, .nil, tracks, (List.append_nil _).symm, (Bool.and_true _).symm⟩
  | cons index indices ih =>
    obtain ⟨here, there⟩ := List.forall_mem_cons.mp within
    cases chosen : wanted index with
    | false =>
      rw [appendEach_passed (by rw [chosen]; rfl), List.filter_cons_of_neg (by rw [chosen]; exact Bool.false_ne_true)]
      exact ih first there tracks many
    | true =>
      rw [appendEach_appended (by rw [chosen]; rfl), List.filter_cons_of_pos chosen]
      obtain ⟨place, middle, one, kept, json⟩ := prints.place first tracks here many
      obtain ⟨slots, last, visits, tracked, text, flag⟩ := ih false there kept (many.trans (length_le_visits one))
      have single : place.size = 1 := one.size_eq
      refine ⟨place.append slots, last, one.append visits, tracked, ?_, ?_⟩
      · rw [text, json, slotTokens_append, single, spelled_append, List.append_assoc]
        simp
      · rw [flag, Slots.size_append, single]
        simp

/-- The loop that passes over the groups that are printed. -/
theorem Prints.sweep (prints : Prints payload base append) (first : Bool)
    (within : ∀ index ∈ indices, index < payload.groups.length)
    (tracks : Tracks payload seen printing.emitted) (many : base ≤ seen.length) :
    ∃ slots last, Sweeps (childIndices payload) seen indices slots last ∧
      (appendEach (fun index printing => printing.has index) append indices printing first).1.json =
        printing.json ++ spelled (slotTokens payload first slots) := by
  induction indices generalizing seen printing first with
  | nil => exact ⟨.nil, seen, .nil, (List.append_nil _).symm⟩
  | cons index indices ih =>
    obtain ⟨here, there⟩ := List.forall_mem_cons.mp within
    cases marked : printing.has index with
    | true =>
      rw [appendEach_passed marked]
      obtain ⟨slots, last, sweeps, json⟩ := ih first there tracks many
      exact ⟨slots, last, .skip ((tracks.marks index).mp marked) sweeps, json⟩
    | false =>
      rw [appendEach_appended marked]
      have new : index ∉ seen := fun old => Bool.false_ne_true (marked.symm.trans ((tracks.marks index).mpr old))
      obtain ⟨place, middle, one, kept, json⟩ := prints.place first tracks here many
      obtain ⟨slots, last, sweeps, text⟩ := ih false there kept (many.trans (length_le_visits one))
      obtain ⟨below, rfl, inner⟩ := one.single new
      refine ⟨_, last, .enter new inner sweeps, ?_⟩
      rw [text, json, List.append_assoc, ← spelled_append]
      simp [slotTokens]

end

/-- With so many levels left as there are groups to enter, the depth is never the reason to stop. -/
theorem prints_appendGroupNodeJson (payload : Payload) (levels : Nat) :
    Prints payload (payload.groups.length + 1 - levels) (appendGroupNodeJson payload levels) := by
  induction levels with
  | zero =>
    intro seen printing index tracks _ many
    exact absurd (many.trans tracks.length_le) (by omega)
  | succ levels ih =>
    intro seen printing index tracks within many
    have found : payload.groups[index]? = some (groupAt payload index) := by simp [groupAt, within]
    rw [appendGroupNodeJson, found]
    dsimp only
    cases marked : printing.has index with
    | true =>
      rw [if_pos rfl]
      exact ⟨.gap .nil, seen, .again ((tracks.marks index).mp marked) .nil, tracks, (List.append_nil _).symm⟩
    | false =>
      rw [if_neg Bool.false_ne_true]
      have new : index ∉ seen := fun old => Bool.false_ne_true (marked.symm.trans ((tracks.marks index).mpr old))
      have all : ∀ index ∈ List.range payload.groups.length, index < payload.groups.length := fun _ => List.mem_range.mp
      have more : payload.groups.length + 1 - levels ≤ (index :: seen).length := by
        rw [List.length_cons]
        omega
      have opened : Tracks payload (index :: seen)
          (⟨printing.json ++ groupOpening payload (groupAt payload index), printing.emitted.set index true⟩ :
            Printing).emitted := tracks.enter within new
      obtain ⟨below, last, visits, kept, json, _⟩ := ih.loop (isChild payload (groupAt payload index).id) true all opened more
      refine ⟨.node index below .nil, last, .enter new visits .nil, kept, ?_⟩
      have ends : ascii "]\x7d" = spelled [.punct bracketClose, .punct Json.braceClose] := by decide +kernel
      change _ ++ ascii "]\x7d" = _
      rw [json, groupOpening_eq, ends, List.append_assoc, List.append_assoc, ← spelled_append, ← spelled_append]
      simp [slotTokens, listed]

/-- The text is that of a walk from the roots and of a sweep over the groups that are left. -/
theorem groupsJson_walk (payload : Payload) : ∃ first second middle last,
    Visits (childIndices payload) [] (rootIndices payload) first middle ∧
      Sweeps (childIndices payload) middle (List.range payload.groups.length) second last ∧
      groupsJson payload = spelled (listed (slotTokens payload true (first.append second))) := by
  have prints := prints_appendGroupNodeJson payload (payload.groups.length + 2)
  have all : ∀ index ∈ List.range payload.groups.length, index < payload.groups.length := fun _ => List.mem_range.mp
  have few (seen : List Nat) : payload.groups.length + 1 - (payload.groups.length + 2) ≤ seen.length := by omega
  have opened : Tracks payload [] (⟨ascii "[", List.replicate payload.groups.length false⟩ : Printing).emitted :=
    .blank payload
  obtain ⟨first, middle, walk, kept, json, flag⟩ := prints.loop (isRoot payload) true all opened (few [])
  obtain ⟨second, last, sweep, text⟩ := prints.sweep (first.size = 0) all kept (few middle)
  refine ⟨first, second, middle, last, walk, sweep, ?_⟩
  have brackets : ascii "[" = spelled [.punct bracketOpen] ∧ ascii "]" = spelled [.punct bracketClose] := by decide +kernel
  unfold groupsJson
  dsimp only
  rw [flag, Bool.true_and, text, json, brackets.1, brackets.2, ← spelled_append, ← spelled_append, ← spelled_append,
    listed, slotTokens_append,
    Bool.true_and, List.append_assoc [_]]
  rfl

/-- A byte stands for itself, behind a backslash, or as a number. -/
theorem jsonEscape_cases (byte : UInt8) : (jsonEscape byte = [byte] ∧ 32 ≤ byte ∧ Json.Apart byte) ∨
    (∃ letter, (letter, byte) ∈ Json.escapes ∧ jsonEscape byte = [Json.backslash, letter]) ∨
    (byte < 32 ∧ ∃ letters, Json.Spells letters byte.toNat ∧ jsonEscape byte = Json.backslash :: 117 :: letters) := by
  have digits : ∀ digit < 16, Json.hexValue (lowerHexDigit digit) = some digit := by decide
  unfold jsonEscape
  split_ifs with quote backslash backspace feed line back tab control
  · exact .inr (.inl ⟨34, by rw [quote]; decide, by decide⟩)
  · exact .inr (.inl ⟨92, by rw [backslash]; decide, by decide⟩)
  · exact .inr (.inl ⟨98, by rw [backspace]; decide, by decide⟩)
  · exact .inr (.inl ⟨102, by rw [feed]; decide, by decide⟩)
  · exact .inr (.inl ⟨110, by rw [line]; decide, by decide⟩)
  · exact .inr (.inl ⟨114, by rw [back]; decide, by decide⟩)
  · exact .inr (.inl ⟨116, by rw [tab]; decide, by decide⟩)
  · have small : byte.toNat < 32 := UInt8.lt_iff_toNat_lt.mp control
    have high := digits (byte.toNat / 16) (by omega)
    have low := digits (byte.toNat % 16) (by omega)
    refine .inr (.inr ⟨control, [48, 48, lowerHexDigit (byte.toNat / 16), lowerHexDigit (byte.toNat % 16)], ?_, ?_⟩)
    · refine ⟨rfl, [0, 0, byte.toNat / 16, byte.toNat % 16], .cons rfl (.cons rfl (.cons high (.cons low .nil))), ?_⟩
      simp only [List.foldl_cons, List.foldl_nil]
      omega
    · have front : ascii "\\u00" = [Json.backslash, 117, 48, 48] := by decide
      rw [front]
      rfl
  · exact .inl ⟨rfl, UInt8.not_lt.mp control, quote, backslash⟩

theorem escapes_ascii : ∀ pair ∈ Json.escapes, pair.1 ≠ 117 ∧ pair.2 ≤ 127 := by
  simp [Json.escapes]

theorem quoted_escaped (bytes : Bytes) : Json.Quoted (bytes.flatMap jsonEscape) := by
  induction bytes with
  | nil => exact .nil
  | cons byte bytes ih =>
    rw [List.flatMap_cons]
    obtain ⟨same, _, apart⟩ | ⟨letter, _, escaped⟩ | ⟨_, letters, spelled, escaped⟩ := jsonEscape_cases byte
    · rw [same]
      exact .letter apart ih
    · rw [escaped]
      exact .escape letter ih
    · rw [escaped]
      exact .escape 117 (.letters_append spelled.apart ih)

theorem escaped_high {bytes : Bytes} (high : ∀ byte ∈ bytes, 128 ≤ byte) : bytes.flatMap jsonEscape = bytes := by
  induction bytes with
  | nil => rfl
  | cons byte bytes ih =>
    obtain ⟨here, there⟩ := List.forall_mem_cons.mp high
    rw [List.flatMap_cons, ih there]
    obtain ⟨same, _, _⟩ | ⟨letter, known, _⟩ | ⟨control, _⟩ := jsonEscape_cases byte
    · rw [same]
      rfl
    · exact absurd (UInt8.le_trans here (escapes_ascii _ known).2) (by decide)
    · exact absurd (UInt8.lt_of_le_of_lt here control) (by decide)

theorem body_of_characters {bytes : Bytes} (characters : Json.Characters bytes) :
    Json.Body (bytes.flatMap jsonEscape) bytes := by
  induction characters with
  | nil => exact .nil
  | char char more ih =>
    rw [List.flatMap_append]
    obtain ⟨small, ascii⟩ | ⟨large, _, high⟩ := Json.utf8_bytes char
    · have value : (UInt8.ofNat char.val.toNat).toNat = char.val.toNat :=
        UInt8.toNat_ofNat_of_lt' (Nat.lt_of_le_of_lt small (by decide))
      obtain ⟨same, printable, apart⟩ | ⟨letter, known, escaped⟩ | ⟨_, letters, spelled, escaped⟩ :=
        jsonEscape_cases (UInt8.ofNat char.val.toNat)
      · have plain : Json.PlainChar char := by
          refine ⟨?_, ?_, ?_⟩
          · rw [UInt32.le_iff_toNat_le, ← value]
            exact UInt8.le_iff_toNat_le.mp printable
          · rintro rfl
            exact apart.1 rfl
          · rintro rfl
            exact apart.2 rfl
        have whole := Json.Body.char char plain ih
        rw [ascii] at whole ⊢
        rwa [List.flatMap_singleton, same]
      · rw [ascii, List.flatMap_singleton, escaped]
        exact .escape (letter, _) known ih
      · have whole := Json.Body.unit letters char (value ▸ spelled) ih
        rw [ascii] at whole ⊢
        rwa [List.flatMap_singleton, escaped]
    · have plain : Json.PlainChar char := by
        refine ⟨?_, ?_, ?_⟩
        · rw [UInt32.le_iff_toNat_le]
          exact Nat.le_trans (by decide) (Nat.le_of_lt large)
        · rintro rfl
          exact absurd large (by decide)
        · rintro rfl
          exact absurd large (by decide)
      rw [escaped_high high]
      exact .char char plain ih

section
variable {letters raw bytes : Bytes}

/-- Letters that need no escape are the same in the text. -/
theorem front_of_apart (apart : ∀ letter ∈ letters, Json.Apart letter) (shape : letters ++ raw = bytes.flatMap jsonEscape) :
    ∃ rest, bytes = letters ++ rest ∧ raw = rest.flatMap jsonEscape := by
  induction letters generalizing bytes with
  | nil => exact ⟨bytes, rfl, shape⟩
  | cons letter letters ih =>
    obtain ⟨here, there⟩ := List.forall_mem_cons.mp apart
    cases bytes with
    | nil => cases shape
    | cons byte bytes =>
      rw [List.flatMap_cons] at shape
      obtain ⟨same, _, _⟩ | ⟨_, _, escaped⟩ | ⟨_, _, _, escaped⟩ := jsonEscape_cases byte
      · rw [same] at shape
        obtain ⟨rfl, tails⟩ := List.cons.inj shape
        obtain ⟨rest, rfl, behind⟩ := ih there tails
        exact ⟨rest, rfl, behind⟩
      · rw [escaped] at shape
        exact absurd (List.cons.inj shape).1 here.2
      · rw [escaped] at shape
        exact absurd (List.cons.inj shape).1 here.2

/-- A backslash and the letter behind it are those of one byte. -/
theorem front_of_escape {letter : UInt8} (shape : Json.backslash :: letter :: raw = bytes.flatMap jsonEscape) :
    ∃ byte rest, bytes = byte :: rest ∧ byte ≤ 127 ∧
    ((letter ≠ 117 ∧ raw = rest.flatMap jsonEscape) ∨ ∃ digits : Bytes, letter = 117 ∧ digits.length = 4 ∧
    raw = digits ++ rest.flatMap jsonEscape) := by
  cases bytes with
  | nil => cases shape
  | cons byte bytes =>
    rw [List.flatMap_cons] at shape
    obtain ⟨same, _, apart⟩ | ⟨other, known, escaped⟩ | ⟨control, digits, spelled, escaped⟩ := jsonEscape_cases byte
    · rw [same] at shape
      exact absurd (List.cons.inj shape).1.symm apart.2
    · rw [escaped] at shape
      obtain ⟨rfl, behind⟩ := List.cons.inj (List.cons.inj shape).2
      exact ⟨byte, bytes, rfl, (escapes_ascii _ known).2, .inl ⟨(escapes_ascii _ known).1, behind⟩⟩
    · rw [escaped] at shape
      obtain ⟨is, behind⟩ := List.cons.inj (List.cons.inj shape).2
      exact ⟨byte, bytes, rfl, UInt8.le_trans (UInt8.le_of_lt control) (by decide), .inr ⟨digits, is, spelled.1, behind⟩⟩

theorem front_of_unit (four : letters.length = 4)
    (shape : Json.backslash :: 117 :: (letters ++ raw) = bytes.flatMap jsonEscape) :
    ∃ byte rest, bytes = byte :: rest ∧ byte ≤ 127 ∧ raw = rest.flatMap jsonEscape := by
  obtain ⟨byte, rest, rfl, small, ⟨other, _⟩ | ⟨digits, _, size, behind⟩⟩ := front_of_escape shape
  · exact absurd rfl other
  · exact ⟨byte, rest, rfl, small, (List.append_inj behind (four.trans size.symm)).2⟩

theorem characters_of_body {plain : Bytes} (body : Json.Body raw plain) (shape : raw = bytes.flatMap jsonEscape) :
    Json.Characters bytes := by
  induction body generalizing bytes with
  | nil =>
    cases bytes with
    | nil => exact .nil
    | cons byte bytes =>
      rw [List.flatMap_cons] at shape
      obtain ⟨same, _⟩ | ⟨_, _, escaped⟩ | ⟨_, _, _, escaped⟩ := jsonEscape_cases byte
      · simp [same] at shape
      · simp [escaped] at shape
      · simp [escaped] at shape
  | char char plain _ ih =>
    obtain ⟨rest, rfl, behind⟩ := front_of_apart plain.apart shape
    exact .char char (ih behind)
  | escape pair known _ ih =>
    obtain ⟨byte, rest, rfl, small, ⟨_, behind⟩ | ⟨_, is, _⟩⟩ := front_of_escape shape
    · exact .ascii small (ih behind)
    · exact absurd is (escapes_ascii pair known).1
  | unit letters char spelled _ ih =>
    obtain ⟨byte, rest, rfl, small, behind⟩ := front_of_unit spelled.1 shape
    exact .ascii small (ih behind)
  | surrogates high low _ _ _ leads follows _ _ _ ih =>
    obtain ⟨byte, rest, rfl, small, behind⟩ := front_of_unit leads.1 shape
    obtain ⟨other, last, rfl, little, further⟩ := front_of_unit follows.1 behind
    exact .ascii small (.ascii little (ih further))

end

theorem dense_of_following {slots : Slots Nat}
    (dense : Json.Dense (.punct Json.comma :: slotTokens payload false slots ++ [.punct bracketClose])) : False := by
  cases slots with
  | nil => exact (List.isChain_cons_cons.mp dense).1 (.inl ⟨rfl, .inr rfl⟩)
  | gap rest => exact (List.isChain_cons_cons.mp dense).1 (.inl ⟨rfl, .inl rfl⟩)
  | node index below rest => exact (List.isChain_cons_cons.mp dense).1 (.inl ⟨rfl, .inl rfl⟩)

/-- The tokens of a group, and those behind it. -/
theorem dense_node {index : Nat} {below rest : Slots Nat} {front : List Json.Token}
    (dense : Json.Dense (front ++ slotTokens payload true (.node index below rest) ++ [.punct bracketClose])) :
    Json.Dense (listed (slotTokens payload true below)) ∧
    Json.Dense (slotTokens payload false rest ++ [.punct bracketClose]) := by
  simp only [slotTokens, if_true, List.nil_append, List.append_assoc] at dense
  have inner := dense.right_of_append.right_of_append
  rw [← List.append_assoc (listed _) [_]] at inner
  exact ⟨inner.left_of_append.left_of_append, inner.right_of_append⟩

/-- Where no item is missing, there is no gap, but for one alone in its brackets. -/
theorem solid_of_dense (slots : Slots Nat) : (Json.Dense (listed (slotTokens payload true slots)) → slots = .gap .nil ∨
    slots.Solid) ∧
    (Json.Dense (slotTokens payload false slots ++ [.punct bracketClose]) → slots.Solid) := by
  induction slots with
  | nil => exact ⟨fun _ => .inr .nil, fun _ => .nil⟩
  | gap rest _ =>
    refine ⟨fun dense => ?_, fun dense => (dense_of_following dense).elim⟩
    cases rest with
    | nil => exact .inl rfl
    | gap _ => exact ((List.isChain_cons_cons.mp dense).1 (.inr ⟨rfl, rfl⟩)).elim
    | node _ _ _ => exact ((List.isChain_cons_cons.mp dense).1 (.inr ⟨rfl, rfl⟩)).elim
  | node index below rest inner others =>
    have solid (front : List Json.Token) (dense :
      Json.Dense (front ++ slotTokens payload true (.node index below rest) ++ [.punct bracketClose])) :
        (Slots.node index below rest).Solid := by
      obtain ⟨within, behind⟩ := dense_node dense
      obtain rfl | filled := inner.1 within
      · exact .lone (others.2 behind)
      · exact .node filled (others.2 behind)
    exact ⟨fun dense => .inr (solid [.punct bracketOpen] dense), fun dense => solid [.punct Json.comma] dense⟩

theorem mem_slotTokens {holds : Json.Token → Prop} (marks : ∀ byte, Json.IsPunct byte → holds (.punct byte))
    {slots : Slots Nat} {first : Bool}
    (each : ∀ index ∈ slots.points, ∀ token ∈ heading payload (groupAt payload index), holds token) :
    ∀ token ∈ slotTokens payload first slots, holds token := by
  have comma (first : Bool) : ∀ token ∈ (if first then [] else [Json.Token.punct Json.comma] : List Json.Token),
    holds token := by
    cases first with
    | true => exact List.forall_mem_nil _
    | false => exact List.forall_mem_singleton.mpr (marks _ (by unfold Json.IsPunct; decide))
  have brackets : ∀ byte ∈ [bracketOpen, bracketClose, Json.braceClose], holds (.punct byte) := by
    refine fun byte member => marks byte ?_
    simp only [List.mem_cons, List.not_mem_nil, or_false] at member
    obtain rfl | rfl | rfl := member <;> (unfold Json.IsPunct; decide)
  simp only [List.forall_mem_cons] at brackets
  obtain ⟨opens, closes, ends, _⟩ := brackets
  induction slots generalizing first with
  | nil => exact List.forall_mem_nil _
  | gap rest ih => exact List.forall_mem_append.mpr ⟨comma first, ih each⟩
  | node index below rest inner ih =>
    rw [Slots.points_node, List.forall_mem_cons, List.forall_mem_append] at each
    obtain ⟨own, under, beside⟩ := each
    simp only [slotTokens, listed, List.forall_mem_append, List.forall_mem_cons]
    exact ⟨⟨comma first, ⟨own, ⟨opens, inner under⟩, closes, List.forall_mem_nil _⟩, ends, List.forall_mem_nil _⟩, ih beside⟩

/-- Every group that was entered has its heading in the text. -/
theorem heading_subset {slots : Slots Nat} {index : Nat} (entered : index ∈ slots.points) (first : Bool) :
    heading payload (groupAt payload index) ⊆ slotTokens payload first slots := by
  induction slots generalizing first with
  | nil => exact absurd entered List.not_mem_nil
  | gap rest ih => exact List.Subset.trans (ih entered false) (List.subset_append_right _ _)
  | node point below rest inner ih =>
    rw [Slots.points_node, List.mem_cons, List.mem_append] at entered
    intro token member
    simp only [slotTokens, listed, List.mem_append, List.mem_cons]
    obtain rfl | under | beside := entered
    · tauto
    · have := inner under true member
      tauto
    · have := ih beside false member
      tauto

section
variable {tokens others : List Json.Token}

theorem balanced_spelled (balanced : ∀ token ∈ tokens, Json.Balanced (spell token)) : Json.Balanced (spelled tokens) := by
  induction tokens with
  | nil => exact .nil
  | cons token tokens ih =>
    obtain ⟨here, there⟩ := List.forall_mem_cons.mp balanced
    exact here.append (ih there)

/-- Marks that are written side by side are so in every reading of the text. -/
theorem dense_of_lexes (balanced : ∀ token ∈ tokens, Json.Balanced (spell token))
    (marks : ∀ byte, .punct byte ∈ tokens → Json.IsPunct byte)
    (lexes : Lexes (spelled tokens) others) (dense : Json.Dense others) : Json.Dense tokens := by
  have pair (one two : UInt8) (before after : List Json.Token)
    (shape : tokens = before ++ .punct one :: .punct two :: after) :
      ¬ Json.Missing (.punct one) (.punct two) := by
    subst shape
    obtain ⟨front, _⟩ := List.forall_mem_append.mp balanced
    rw [spelled_append] at lexes
    obtain ⟨_, _, rfl⟩ := lexes.adjacent (balanced_spelled front) (marks one (by simp)) (marks two (by simp))
    exact (List.isChain_append_cons_cons.mp dense).2.1
  refine List.isChain_iff_forall_rel_of_append_cons_cons.mpr fun one two before after shape missing => ?_
  obtain ⟨rfl, rfl | rfl⟩ | ⟨rfl, rfl⟩ := id missing
  · exact pair _ _ before after shape missing
  · exact pair _ _ before after shape missing
  · exact pair _ _ before after shape missing

theorem characters_of_lexes (balanced : ∀ token ∈ tokens, Json.Balanced (spell token))
    (lexes : Lexes (spelled tokens) others) {bytes : Bytes}
    (member : .text bytes ∈ tokens) : Json.Characters bytes := by
  obtain ⟨before, after, rfl⟩ := List.append_of_mem member
  obtain ⟨front, _⟩ := List.forall_mem_append.mp balanced
  have shape : spelled (before ++ .text bytes :: after) = spelled before ++
    Json.quote :: (bytes.flatMap jsonEscape ++ Json.quote :: spelled after) := by
    rw [spelled_append]
    change spelled before ++ (Json.quote :: bytes.flatMap jsonEscape ++ [Json.quote] ++ spelled after) = _
    simp
  rw [shape] at lexes
  obtain ⟨plain, body⟩ := lexes.body (balanced_spelled front) (quoted_escaped bytes)
  exact characters_of_body body rfl

end

theorem spell_text (bytes : Bytes) : spell (.text bytes) = Json.quote :: (bytes.flatMap jsonEscape ++ Json.quote :: []) := rfl

/-- What is said of every token of a text: marks are marks and numbers are numbers. -/
def Sound : Json.Token → Prop
  | .punct byte => Json.IsPunct byte
  | .number letters => Json.IsNumber letters
  | .word _ => False
  | .text _ => True

theorem Sound.balanced {token : Json.Token} (sound : Sound token) : Json.Balanced (spell token) := by
  cases token with
  | punct byte =>
    refine .letter ?_ .nil
    rintro rfl
    exact absurd sound (by unfold Sound Json.IsPunct; decide)
  | word => exact sound.elim
  | number letters =>
    have none : ∀ byte ∈ letters, byte ≠ Json.quote :=
      fun byte member is => Json.IsNumber.not_mark sound byte member (.inr is)
    have balanced := Json.Balanced.letters_append none .nil
    rwa [List.append_nil] at balanced
  | text bytes =>
    rw [spell_text]
    exact .text (quoted_escaped bytes) .nil

theorem Sound.lexes {token : Json.Token} (sound : Sound token) (plain : ∀ bytes, token = .text bytes →
    Json.Characters bytes) :
    Lexes (spell token) [token] := by
  cases token with
  | punct byte => exact .punct sound .nil
  | word => exact sound.elim
  | number letters =>
    have lexes := Lexes.number sound .nil
    rwa [List.append_nil] at lexes
  | text bytes =>
    rw [spell_text]
    exact .text (body_of_characters (plain bytes rfl)) .nil

def groupKeys : List Bytes :=
  [ascii "id", ascii "parent_id", ascii "title", ascii "notes", ascii "color", ascii "entry_count", ascii "children"]

theorem groupKeys_characters : ∀ key ∈ groupKeys, Json.Characters key := by
  have small : ∀ key ∈ groupKeys, ∀ byte ∈ key, byte ≤ 127 := by decide +kernel
  intro key member
  have ascii := small key member
  clear member
  induction key with
  | nil => exact .nil
  | cons byte key ih =>
    obtain ⟨here, there⟩ := List.forall_mem_cons.mp ascii
    exact .ascii here (ih there)

theorem heading_sound (payload : Payload) (group : Group) : ∀ token ∈ heading payload group, Sound token := by
  have marks : Json.IsPunct Json.braceOpen ∧ Json.IsPunct Json.comma ∧ Json.IsPunct Json.colon := by
    unfold Json.IsPunct
    decide
  simp only [heading, List.forall_mem_cons, Sound, marks, true_and, Audit.unsigned_number]
  exact List.forall_mem_nil _

/-- The strings of a heading are its keys and the texts of the group. -/
theorem heading_texts {group : Group} {bytes : Bytes} (member : .text bytes ∈ heading payload group) :
    bytes ∈ groupKeys ∨ bytes ∈ groupTexts group := by
  simp only [heading, List.mem_cons, List.not_mem_nil, reduceCtorEq, Json.Token.text.injEq, false_or, or_false] at member
  simp only [groupKeys, groupTexts, List.mem_cons, List.not_mem_nil, or_false]
  tauto

theorem groupTexts_heading {group : Group} {bytes : Bytes} (member : bytes ∈ groupTexts group) :
    .text bytes ∈ heading payload group := by
  simp only [groupTexts, List.mem_cons, List.not_mem_nil, or_false] at member
  simp only [heading, List.mem_cons, List.not_mem_nil, reduceCtorEq, Json.Token.text.injEq, false_or, or_false]
  tauto

theorem listed_sound (payload : Payload) (slots : Slots Nat) : ∀ token ∈ listed (slotTokens payload true slots),
    Sound token := by
  have brackets : Sound (.punct bracketOpen) ∧ Sound (.punct bracketClose) := by
    unfold Sound Json.IsPunct
    decide
  have inner : ∀ token ∈ slotTokens payload true slots, Sound token :=
    mem_slotTokens (fun _ mark => mark) fun index _ => heading_sound payload (groupAt payload index)
  simp only [listed, List.forall_mem_append, List.forall_mem_cons]
  exact ⟨⟨brackets.1, inner⟩, brackets.2, List.forall_mem_nil _⟩

theorem slotTokens_solid {slots : Slots Nat} (solid : slots.Solid) :
    slotTokens payload false slots = (Json.itemTokens (forestJson payload slots.forest)).flatMap (.punct Json.comma :: ·) ∧
      slotTokens payload true slots = Json.separated (Json.itemTokens (forestJson payload slots.forest)) := by
  have group (index : Nat) (children : List Value) : heading payload (groupAt payload index) ++
    listed (Json.separated (Json.itemTokens children)) ++
      [.punct Json.braceClose] = (groupValue payload (groupAt payload index) children).tokens := by
    simp [heading, listed, groupValue, Value.tokens, Json.memberTokens, Json.separated]
  have node (index : Nat) (below rest : Slots Nat)
      (inner : slotTokens payload true below = Json.separated (Json.itemTokens (forestJson payload below.forest)))
      (others : slotTokens payload false rest = (Json.itemTokens (forestJson payload rest.forest)).flatMap
        (.punct Json.comma :: ·)) :
      slotTokens payload false (.node index below rest) =
          (Json.itemTokens (forestJson payload (Slots.node index below rest).forest)).flatMap (.punct Json.comma :: ·) ∧
        slotTokens payload true (.node index below rest) =
          Json.separated (Json.itemTokens (forestJson payload (Slots.node index below rest).forest)) := by
    simp only [slotTokens, inner, others, group, Slots.forest, forestJson, Json.itemTokens, Json.separated_cons,
      List.flatMap_cons]
    exact ⟨rfl, rfl⟩
  induction solid with
  | nil => exact ⟨rfl, rfl⟩
  | lone _ ih => exact node _ _ _ rfl ih.1
  | node _ _ inner ih => exact node _ _ _ inner.2 ih.1

theorem mem_groups_iff {group : Group} : group ∈ payload.groups ↔ ∃ index ∈ List.range payload.groups.length,
    groupAt payload index = group := by
  rw [List.mem_iff_getElem]
  constructor
  · rintro ⟨index, within, rfl⟩
    exact ⟨index, List.mem_range.mpr within, by simp [groupAt, within]⟩
  · rintro ⟨index, within, rfl⟩
    have within := List.mem_range.mp within
    exact ⟨index, within, by simp [groupAt, within]⟩

/-- A document of any kind is one only of texts that are characters, and of a walk without gaps. -/
theorem listable_of_document {value : Value} (document : Json.Document (groupsJson payload) value) : Listable payload := by
  obtain ⟨first, second, middle, last, walk, sweep, text⟩ := groupsJson_walk payload
  have sound := listed_sound payload (first.append second)
  have balanced : ∀ token ∈ listed (slotTokens payload true (first.append second)), Json.Balanced (spell token) :=
    fun token member => (sound token member).balanced
  rw [Json.Document, text] at document
  constructor
  · intro group member bytes own
    obtain ⟨index, within, rfl⟩ := mem_groups_iff.mp member
    have entered := ((graph payload).points_perm walk sweep).mem_iff.mpr within
    have inside := heading_subset entered true (groupTexts_heading own)
    exact characters_of_lexes balanced document (List.mem_append_left _ (List.mem_cons_of_mem _ inside))
  · have dense := dense_of_lexes balanced (fun byte member => sound _ member) document value.firm.dense
    obtain only | solid := (solid_of_dense (first.append second)).1 dense
    · exact ((walk.append sweep.visits).first_entered only).elim
    · exact (graph payload).unbroken_of_solid walk sweep solid

theorem lists_of_listable (listable : Listable payload) : Lists payload (groupsJson payload) := by
  obtain ⟨first, second, middle, last, walk, sweep, text⟩ := groupsJson_walk payload
  have perm := (graph payload).points_perm walk sweep
  have solid := (graph payload).solid_of_unbroken walk sweep listable.unbroken
  refine ⟨(first.append second).forest, Slots.points_forest ▸ perm, ?_⟩
  have array : (Value.array (forestJson payload (first.append second).forest)).tokens =
    listed (slotTokens payload true (first.append second)) := by
    rw [Value.tokens, ← (slotTokens_solid solid).2]
    rfl
  rw [Json.Document, array, text]
  refine Lexes.flatMap fun token member => (listed_sound payload _ token member).lexes ?_
  rintro bytes rfl
  have inner : ∀ token ∈ slotTokens payload true (first.append second), ∀ bytes, token = .text bytes →
    Json.Characters bytes := by
    refine mem_slotTokens (fun _ _ _ is => by cases is) fun index entered token own bytes is => ?_
    subst is
    obtain key | mine := heading_texts own
    · exact groupKeys_characters bytes key
    · exact listable.legible _ (mem_groups_iff.mpr ⟨index, perm.mem_iff.mp entered, rfl⟩) bytes mine
  simp only [listed, List.mem_append, List.mem_cons, reduceCtorEq, List.not_mem_nil, false_or, or_false] at member
  exact inner _ member bytes rfl

theorem lists_iff (payload : Payload) : Lists payload (groupsJson payload) ↔ Listable payload :=
  ⟨fun lists => listable_of_document lists.choose_spec.2, lists_of_listable⟩

/-- There is no memory, or the reply is a document with every group in it once. -/
def Answered (memory : Bool) (handle : VaultHandle) (payload : Payload) : Prop :=
  (memory = false ∧ buildGroupsJson memory handle = .error .nomem) ∨ ∃ text, buildGroupsJson memory handle = .ok text ∧
    Lists payload text

theorem buildGroupsJson_of_model {handle : VaultHandle} (model : (vaultGetPayloadModel handle).1 = .ok payload)
    (memory : Bool) :
    buildGroupsJson memory handle = if payload.groups ≠ [] ∧
    memory = false then .error .nomem else .ok (groupsJson payload) := by
  rw [buildGroupsJson, model]

/-- The groups of a vault are answered with a document exactly where the walk over them leaves no
gap and their texts are characters. -/
theorem groups_answered_iff (handle : VaultHandle) (payload : Payload)
    (model : (vaultGetPayloadModel handle).1 = .ok payload) :
    (∀ memory, Answered memory handle payload) ↔ Listable payload := by
  simp only [Answered, buildGroupsJson_of_model model]
  constructor
  · intro always
    obtain ⟨none, _⟩ | ⟨text, same, lists⟩ := always true
    · cases none
    · rw [if_neg fun refused => Bool.noConfusion refused.2] at same
      cases same
      exact (lists_iff payload).mp lists
  · intro listable memory
    by_cases refused : payload.groups ≠ [] ∧ memory = false
    · exact .inl ⟨refused.2, if_pos refused⟩
    · exact .inr ⟨_, if_neg refused, (lists_iff payload).mpr listable⟩

/-- Two groups, where the second is a child of the first. -/
def nestedVault : VaultHandle :=
  { locked := false, payload := [0xA5, 1, 1, 2, 1, 3, 1, 4, 0x80, 5, 0x82, 0xA1, 1, 0x61, 0x61, 0xA2, 1, 0x61, 0x62, 2, 0x61, 0x61] }

theorem characters_of_small {text : Bytes} (small : ∀ byte ∈ text, byte ≤ 127) : Json.Characters text := by
  induction text with
  | nil => exact .nil
  | cons byte rest ih =>
    exact .ascii (small byte List.mem_cons_self) (ih fun other inside => small other (List.mem_cons_of_mem _ inside))

theorem groups_answered_iff_nested : (modelOf nestedVault).groups.length = 2 ∧
    ∀ memory, Answered memory nestedVault (modelOf nestedVault) := by
  have small : ∀ group ∈ (modelOf nestedVault).groups, ∀ text ∈ groupTexts group, ∀ byte ∈ text, byte ≤ 127 :=
    by decide +kernel
  have few : ∀ index ∈ List.range (modelOf nestedVault).groups.length,
    (childIndices (modelOf nestedVault) index).length ≤ 1 := by
    decide +kernel
  have root : rootIndices (modelOf nestedVault) = [0] := by decide +kernel
  refine ⟨by decide +kernel, (groups_answered_iff nestedVault (modelOf nestedVault) (by decide +kernel)).mpr ?_⟩
  refine ⟨fun group inside text given => characters_of_small (small group inside text given), ?_, ?_, ?_⟩
  · rw [root]
    exact List.pairwise_singleton _ _
  · intro point inside many
    exact absurd (Nat.le_trans many (few point inside)) (by decide)
  · intro point inside many
    exact absurd (Nat.le_trans many (few point inside)) (by decide)

def loopedVault : VaultHandle :=
  { locked := false, payload := [0xA5, 1, 1, 2, 1, 3, 1, 4, 0x80, 5, 0x82, 0xA2, 1, 0x61, 0x61, 2, 0x61, 0x61, 0xA2, 1, 0x61, 0x62, 2, 0x61, 0x61] }

/-- Its children are written as `[,{`, and no document is left. -/
theorem looped_group_spoils_document : ¬ ∀ (handle : VaultHandle) (payload : Payload),
    (vaultGetPayloadModel handle).1 = .ok payload →
    ∀ memory, Answered memory handle payload := by
  intro always
  have model : (vaultGetPayloadModel loopedVault).1 = .ok (modelOf loopedVault) := by decide +kernel
  obtain ⟨none, _⟩ | ⟨text, same, forest, _, document⟩ := always loopedVault _ model true
  · cases none
  · rw [buildGroupsJson_of_model model, if_neg fun refused => Bool.noConfusion refused.2] at same
    cases same
    have unbroken := (listable_of_document document).unbroken
    have looped : 0 ∈ List.range (modelOf loopedVault).groups.length ∧ 2 ≤ (childIndices (modelOf loopedVault) 0).length ∧
        0 ∈ childIndices (modelOf loopedVault) 0 ∧ 0 ∈ rootIndices (modelOf loopedVault) := by decide +kernel
    exact (unbroken.held 0 looped.1 looped.2.1 0 looped.2.2.1).1 looped.2.2.2

end Hiya.Daemon.Vaults
