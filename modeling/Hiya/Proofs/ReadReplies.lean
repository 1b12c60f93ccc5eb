import Hiya.Proofs.EntryUpdates
import Hiya.Proofs.GroupScopes
import Hiya.Proofs.GroupTrees

/-! The replies that are lists of objects. A reply is a JSON document if and only if the texts in
it are characters, and it then has one object for each thing that was asked for, in the order of
the vault. -/

namespace Hiya.Daemon.Vaults
open Library Pm Pm.Store
open Fido2 (ascii)
open Json (Value Lexes)

def Field.value : Field → Value
  | .text bytes => .text bytes
  | .flag value => .word (ascii (if value then "true" else "false"))
  | .number value => .number (Audit.unsigned value.toNat)

def objectValue (members : List (String × Field)) : Value :=
    .object (members.map fun (key, field) => (ascii key, field.value))

def memberTexts (members : List (String × Field)) : List Bytes :=
  members.filterMap fun (_, field) => match field with
    | .text bytes => some bytes
    | .flag _ => none
    | .number _ => none

/-- The keys are written as they are. -/
def PlainKeys (members : List (String × Field)) : Prop :=
  ∀ member ∈ members, ∀ byte ∈ ascii member.1, byte ≤ 127 ∧ byte ∉ escapedBytes

def Fair : Json.Token → Prop
  | .word letters => Json.IsWord letters
  | token => Sound token

theorem Fair.balanced {token : Json.Token} (fair : Fair token) : Json.Balanced (spell token) := by
  cases token with
  | word letters =>
    have none : ∀ byte ∈ letters, byte ≠ Json.quote := fun byte member is => Json.IsWord.not_mark fair byte member (.inr is)
    have balanced := Json.Balanced.letters_append none .nil
    rwa [List.append_nil] at balanced
  | punct => exact Sound.balanced fair
  | number => exact Sound.balanced fair
  | text => exact Sound.balanced fair

theorem Fair.lexes {token : Json.Token} (fair : Fair token) (plain : ∀ bytes, token = .text bytes → Json.Characters bytes) :
    Lexes (spell token) [token] := by
  cases token with
  | word letters =>
    have lexes := Lexes.word fair .nil
    rwa [List.append_nil] at lexes
  | punct => exact Sound.lexes fair plain
  | number => exact Sound.lexes fair plain
  | text => exact Sound.lexes fair plain

section
variable {members : List (String × Field)} {records : List (List (String × Field))}

private theorem escape_plain {letters : Bytes} (plain : ∀ byte ∈ letters, byte ≤ 127 ∧ byte ∉ escapedBytes) :
    letters.flatMap jsonEscape = letters := by
  induction letters with
  | nil => rfl
  | cons byte letters ih =>
    obtain ⟨here, there⟩ := List.forall_mem_cons.mp plain
    rw [List.flatMap_cons, (jsonEscape_plain here.2).1, ih there]
    rfl

private theorem field_spelled (field : Field) : field.json = spelled field.value.tokens := by
  cases field with
  | text bytes => simp [Field.json, Field.value, Value.tokens, spelled, spell]
  | flag value => simp [Field.json, Field.value, Value.tokens, spelled, spell]
  | number value => simp [Field.json, Field.value, Value.tokens, spelled, spell]

private theorem member_spelled {key : String} (field : Field)
    (plain : ∀ byte ∈ ascii key, byte ≤ 127 ∧ byte ∉ escapedBytes) :
    0x22 :: ascii key ++ [0x22, 0x3A] ++ field.json =
    spelled (.text (ascii key) :: .punct Json.colon :: field.value.tokens) := by
  rw [field_spelled]
  simp [spelled, spell, escape_plain plain, Json.colon]

private theorem jsonMembers_spelled (plain : PlainKeys members) :
    jsonMembers members = spelled (Json.separated (Json.memberTokens (members.map fun (key, field) =>
    (ascii key, field.value)))) := by
  induction members with
  | nil => rfl
  | cons member members ih =>
    obtain ⟨here, there⟩ := List.forall_mem_cons.mp plain
    cases members with
    | nil => exact member_spelled member.2 here
    | cons next others =>
      have same := member_spelled member.2 here
      calc jsonMembers (member :: next :: others)
        _ = (0x22 :: ascii member.1 ++ [0x22, 0x3A] ++ member.2.json) ++ 0x2C :: jsonMembers (next :: others) := rfl
        _ = spelled (.text (ascii member.1) :: .punct Json.colon :: member.2.value.tokens) ++
          0x2C :: jsonMembers (next :: others) := by rw [same]
        _ = spelled (.text (ascii member.1) :: .punct Json.colon :: member.2.value.tokens) ++
            spelled (.punct Json.comma :: Json.separated (Json.memberTokens ((next :: others).map fun (key, field) =>
              (ascii key, field.value)))) := by
          rw [ih there]
          rfl
        _ = _ := (spelled_append _ _).symm

private theorem jsonObject_spelled (plain : PlainKeys members) :
    jsonObject members = spelled (objectValue members).tokens := by
  rw [jsonObject, jsonMembers_spelled plain, objectValue, Value.tokens]
  simp [spelled, spell, Json.braceOpen, Json.braceClose]

/-- A comma stands in front of every item but the first. -/
theorem jsonList_eq (items : List Bytes) :
    jsonList items = 0x5B :: (match items with
      | [] => []
      | first :: rest => first ++ rest.flatMap (0x2C :: ·)) ++ [0x5D] := by
  have later (items : List Bytes) (json : Bytes) :
      items.foldl (fun state item => (if state.2 then state.1 ++ item else state.1 ++ ascii "," ++ item, false))
        (json, false) =
        (json ++ items.flatMap (0x2C :: ·), false) := by
    induction items generalizing json with
    | nil => simp
    | cons item items ih =>
      rw [List.foldl_cons, List.flatMap_cons]
      simp only [Bool.false_eq_true, if_false]
      rw [ih]
      simp [ascii]
  cases items with
  | nil => rfl
  | cons item items =>
    have whole : jsonList (item :: items) =
        (items.foldl (fun state item => (if state.2 then state.1 ++ item else state.1 ++ ascii "," ++ item, false))
          (ascii "[" ++ item, false)).1 ++ ascii "]" := rfl
    rw [whole, later]
    simp [ascii]

private theorem jsonList_spelled (plain : ∀ record ∈ records, PlainKeys record) :
    jsonList (records.map jsonObject) = spelled (Value.array (records.map objectValue)).tokens := by
  have rest (records : List (List (String × Field))) (plain : ∀ record ∈ records, PlainKeys record) :
      (records.map jsonObject).flatMap (0x2C :: ·) =
        spelled ((Json.itemTokens (records.map objectValue)).flatMap (.punct Json.comma :: ·)) := by
    induction records with
    | nil => rfl
    | cons record records ih =>
      obtain ⟨here, there⟩ := List.forall_mem_cons.mp plain
      rw [List.map_cons, List.flatMap_cons, ih there, List.map_cons, Json.itemTokens, List.flatMap_cons,
        spelled_append, jsonObject_spelled here]
      rfl
  rw [jsonList_eq, Value.tokens, List.cons_append, List.cons_append]
  cases records with
  | nil => rfl
  | cons record records =>
    obtain ⟨here, there⟩ := List.forall_mem_cons.mp plain
    rw [List.map_cons, List.map_cons, Json.itemTokens, Json.separated_cons]
    dsimp only
    rw [rest records there, jsonObject_spelled here, ← spelled_append]
    simp [spelled, spell, bracketOpen, bracketClose]

private theorem mem_separated {parts : List (List Json.Token)} {token : Json.Token} (member : token ∈ Json.separated parts) :
    token = .punct Json.comma ∨ ∃ part ∈ parts, token ∈ part := by
  cases parts with
  | nil => cases member
  | cons part parts =>
    rw [Json.separated_cons, List.mem_append, List.mem_flatMap] at member
    obtain first | ⟨other, inside, member⟩ := member
    · exact .inr ⟨part, List.mem_cons_self, first⟩
    · obtain rfl | member := List.mem_cons.mp member
      · exact .inl rfl
      · exact .inr ⟨other, List.mem_cons_of_mem _ inside, member⟩

private theorem separated_subset {parts : List (List Json.Token)} {part : List Json.Token} (inside : part ∈ parts) :
    part ⊆ Json.separated parts := by
  intro token member
  cases parts with
  | nil => cases inside
  | cons first parts =>
    rw [Json.separated_cons, List.mem_append, List.mem_flatMap]
    obtain rfl | inside := List.mem_cons.mp inside
    · exact .inl member
    · exact .inr ⟨part, inside, List.mem_cons_of_mem _ member⟩

/-- A token of an object is a mark, a key or what is behind a key. -/
theorem mem_objectValue {token : Json.Token} (member : token ∈ (objectValue members).tokens) :
    (∃ byte, token = .punct byte ∧ Json.IsPunct byte) ∨ ∃ key field, (key, field) ∈ members ∧
    (token = .text (ascii key) ∨ token ∈ field.value.tokens) := by
  have marks : Json.IsPunct Json.braceOpen ∧ Json.IsPunct Json.braceClose ∧ Json.IsPunct Json.comma ∧
    Json.IsPunct Json.colon := by
    unfold Json.IsPunct
    decide
  obtain ⟨opens, closes, comma, colon⟩ := marks
  have parts (members : List (String × Field)) {part : List Json.Token}
      (inside : part ∈ Json.memberTokens (members.map fun (key, field) => (ascii key, field.value))) :
      ∃ key field, (key, field) ∈ members ∧ part = .text (ascii key) :: .punct Json.colon :: field.value.tokens := by
    induction members with
    | nil => cases inside
    | cons member members ih =>
      obtain rfl | inside := List.mem_cons.mp inside
      · exact ⟨member.1, member.2, List.mem_cons_self, rfl⟩
      · obtain ⟨key, field, there, shape⟩ := ih inside
        exact ⟨key, field, List.mem_cons_of_mem _ there, shape⟩
  rw [objectValue, Value.tokens, List.mem_append, List.mem_cons, List.mem_singleton] at member
  obtain (rfl | member) | rfl := member
  · exact .inl ⟨_, rfl, opens⟩
  · obtain rfl | ⟨part, inside, member⟩ := mem_separated member
    · exact .inl ⟨_, rfl, comma⟩
    · obtain ⟨key, field, there, rfl⟩ := parts members inside
      rw [List.mem_cons, List.mem_cons] at member
      obtain rfl | rfl | member := member
      · exact .inr ⟨key, field, there, .inl rfl⟩
      · exact .inl ⟨_, rfl, colon⟩
      · exact .inr ⟨key, field, there, .inr member⟩
  · exact .inl ⟨_, rfl, closes⟩

private theorem text_mem_objectValue {key : String} {bytes : Bytes} (member : (key, .text bytes) ∈ members) :
    .text bytes ∈ (objectValue members).tokens := by
  have part (members : List (String × Field)) (member : (key, Field.text bytes) ∈ members) :
      .text (ascii key) :: .punct Json.colon :: [.text bytes] ∈ Json.memberTokens (members.map fun (key, field) =>
        (ascii key, field.value)) := by
    induction members with
    | nil => cases member
    | cons first members ih =>
      obtain rfl | member := List.mem_cons.mp member
      · exact List.mem_cons_self
      · exact List.mem_cons_of_mem _ (ih member)
  have inside := separated_subset (part members member) (List.mem_cons_of_mem _ (List.mem_cons_of_mem _ List.mem_cons_self))
  rw [objectValue, Value.tokens]
  exact List.mem_append_left _ (List.mem_cons_of_mem _ inside)

private theorem mem_memberTexts {bytes : Bytes} : bytes ∈ memberTexts members ↔ ∃ key, (key, Field.text bytes) ∈ members := by
  unfold memberTexts
  rw [List.mem_filterMap]
  constructor
  · rintro ⟨⟨key, field⟩, member, same⟩
    cases field with
    | text bytes =>
      cases same
      exact ⟨key, member⟩
    | flag => cases same
    | number => cases same
  · rintro ⟨key, member⟩
    exact ⟨_, member, rfl⟩

private theorem field_fair (field : Field) : ∀ token ∈ field.value.tokens, Fair token := by
  have words : Json.IsWord (ascii "true") ∧ Json.IsWord (ascii "false") := by
    unfold Json.IsWord
    decide +kernel
  cases field with
  | text bytes => simp [Field.value, Value.tokens, Fair, Sound]
  | flag value => cases value <;> simp [Field.value, Value.tokens, Fair, words]
  | number value => simp [Field.value, Value.tokens, Fair, Sound, Audit.unsigned_number]

private theorem objectValue_fair : ∀ token ∈ (objectValue members).tokens, Fair token := by
  intro token member
  obtain ⟨byte, rfl, mark⟩ | ⟨key, field, _, rfl | value⟩ := mem_objectValue member
  · exact mark
  · exact trivial
  · exact field_fair field token value

private theorem mem_itemTokens {values : List Value} {part : List Json.Token} : part ∈ Json.itemTokens values ↔
    ∃ value ∈ values, value.tokens = part := by
  induction values with
  | nil => simp [Json.itemTokens]
  | cons value values ih => simp [Json.itemTokens, ih, eq_comm]

private theorem mem_recordTokens {token : Json.Token} (member : token ∈ (Value.array (records.map objectValue)).tokens) :
    (∃ byte, token = .punct byte ∧ Json.IsPunct byte) ∨ ∃ record ∈ records, token ∈ (objectValue record).tokens := by
  have marks : Json.IsPunct bracketOpen ∧ Json.IsPunct bracketClose ∧ Json.IsPunct Json.comma := by
    unfold Json.IsPunct
    decide
  obtain ⟨opens, closes, comma⟩ := marks
  rw [Value.tokens, List.mem_append, List.mem_cons, List.mem_singleton] at member
  obtain (rfl | member) | rfl := member
  · exact .inl ⟨_, rfl, opens⟩
  · obtain rfl | ⟨part, inside, member⟩ := mem_separated member
    · exact .inl ⟨_, rfl, comma⟩
    · obtain ⟨value, given, rfl⟩ := mem_itemTokens.mp inside
      obtain ⟨record, there, rfl⟩ := List.mem_map.mp given
      exact .inr ⟨record, there, member⟩
  · exact .inl ⟨_, rfl, closes⟩

private theorem record_subset {record : List (String × Field)} (inside : record ∈ records) :
    (objectValue record).tokens ⊆ (Value.array (records.map objectValue)).tokens := by
  have part := separated_subset (mem_itemTokens.mpr ⟨objectValue record, List.mem_map_of_mem inside, rfl⟩)
  rw [Value.tokens]
  exact fun token member => List.mem_append_left _ (List.mem_cons_of_mem _ (part member))

private theorem recordTokens_fair : ∀ token ∈ (Value.array (records.map objectValue)).tokens, Fair token := by
  intro token member
  obtain ⟨byte, rfl, mark⟩ | ⟨record, _, inside⟩ := mem_recordTokens member
  · exact mark
  · exact objectValue_fair token inside

private theorem characters_of_key {key : String} {field : Field} (plain : PlainKeys members)
    (member : (key, field) ∈ members) : Json.Characters (ascii key) := by
  have small : ∀ byte ∈ ascii key, byte ≤ 127 := fun byte inside => (plain _ member byte inside).1
  generalize ascii key = letters at small
  induction letters with
  | nil => exact .nil
  | cons byte letters ih =>
    obtain ⟨here, there⟩ := List.forall_mem_cons.mp small
    exact .ascii here (ih there)

/-- A string in an object is a key or a text of a member. -/
theorem characters_objectValue (plain : PlainKeys members) (legible : ∀ written ∈ memberTexts members,
    Json.Characters written) {bytes : Bytes}
    (member : .text bytes ∈ (objectValue members).tokens) : Json.Characters bytes := by
  obtain ⟨byte, impossible, _⟩ | ⟨key, field, behind, is | value⟩ := mem_objectValue member
  · cases impossible
  · cases is
    exact characters_of_key plain behind
  · cases field with
    | text own =>
      rw [Field.value, Value.tokens, List.mem_singleton] at value
      cases value
      exact legible bytes (mem_memberTexts.mpr ⟨key, behind⟩)
    | flag => simp [Field.value, Value.tokens] at value
    | number => simp [Field.value, Value.tokens] at value

/-- The text is a document only where the texts in it are characters, and then it is the document
of this value. -/
structure Writes (value : Value) (texts : List Bytes) (text : Bytes) : Prop where
  legible : (∃ other, Json.Document text other) ↔ ∀ written ∈ texts, Json.Characters written
  same : (∃ other, Json.Document text other) → Json.Document text value

private theorem spelled_writes {value : Value} {texts : List Bytes} (fair : ∀ token ∈ value.tokens, Fair token)
    (given : ∀ written ∈ texts, .text written ∈ value.tokens)
    (strings : (∀ written ∈ texts, Json.Characters written) → ∀ bytes, .text bytes ∈ value.tokens → Json.Characters bytes) :
    Writes value texts (spelled value.tokens) := by
  have balanced : ∀ token ∈ value.tokens, Json.Balanced (spell token) := fun token member => (fair token member).balanced
  have legible (document : ∃ other, Json.Document (spelled value.tokens) other) : ∀ written ∈ texts,
    Json.Characters written := by
    obtain ⟨other, document⟩ := document
    exact fun written member => characters_of_lexes balanced document (given written member)
  have document (legible : ∀ written ∈ texts, Json.Characters written) : Json.Document (spelled value.tokens) value :=
    Lexes.flatMap fun token member => (fair token member).lexes fun bytes is => strings legible bytes (is ▸ member)
  exact ⟨⟨legible, fun fine => ⟨_, document fine⟩⟩, fun some => document (legible some)⟩

private theorem jsonObject_writes (plain : PlainKeys members) : Writes (objectValue members) (memberTexts members)
    (jsonObject members) := by
  rw [jsonObject_spelled plain]
  refine spelled_writes objectValue_fair (fun written member => ?_)
    fun legible bytes member => characters_objectValue plain legible member
  obtain ⟨key, member⟩ := mem_memberTexts.mp member
  exact text_mem_objectValue member

private theorem jsonList_writes (plain : ∀ record ∈ records, PlainKeys record) :
    Writes (.array (records.map objectValue)) (records.flatMap memberTexts) (jsonList (records.map jsonObject)) := by
  rw [jsonList_spelled plain]
  refine spelled_writes recordTokens_fair (fun written member => ?_) fun legible bytes member => ?_
  · obtain ⟨record, inside, member⟩ := List.mem_flatMap.mp member
    obtain ⟨key, member⟩ := mem_memberTexts.mp member
    exact record_subset inside (text_mem_objectValue member)
  · obtain ⟨byte, impossible, _⟩ | ⟨record, inside, member⟩ := mem_recordTokens member
    · cases impossible
    · exact characters_objectValue (plain record inside)
        (fun written own => legible written (List.mem_flatMap.mpr ⟨record, inside, own⟩)) member

end

def Occurs (needle haystack : CStr) : Prop :=
  ∃ front middle back, haystack.bytes = front ++ middle ++ back ∧ middle.map tolower = needle.bytes.map tolower

/-- The texts of the entry have what is looked for, and the entry is in the group or below it. -/
structure Found (payload : Payload) (query url groupId : CStr) (includeDescendants : Bool) (entry : Entry) : Prop where
  texts : ∃ text ∈ entry.title :: entry.username :: entry.url :: entry.notes :: entry.urls, Occurs query text
  urls : ∃ text ∈ entry.url :: entry.urls, Occurs url text
  scope : groupId = .empty ∨ entry.groupId = groupId ∨ includeDescendants = true ∧ entry.groupId ≠ .empty ∧
    Ascends payload entry.groupId groupId

section
variable {needle haystack query url groupId : CStr} {entry : Entry} {payload : Payload} {includeDescendants : Bool}

private theorem occurs_empty : Occurs .empty haystack := ⟨[], [], haystack.bytes, rfl, rfl⟩

/-- The letters at a place are those of the needle. -/
theorem place_iff {place : Nat} (room : place + needle.bytes.length ≤ haystack.bytes.length) :
    ((List.range needle.bytes.length).all fun j => tolower (haystack.bytes.getD (place + j) 0) =
    tolower (needle.bytes.getD j 0)) = true ↔
      ((haystack.bytes.drop place).take needle.bytes.length).map tolower = needle.bytes.map tolower := by
  rw [List.all_eq_true]
  constructor
  · intro all
    refine List.ext_getElem (by simp; omega) fun index inside within => ?_
    rw [List.length_map] at within
    have same := of_decide_eq_true (all index (List.mem_range.mpr within))
    rw [List.getD_eq_getElem?_getD, List.getD_eq_getElem?_getD, List.getElem?_eq_getElem (by omega),
      List.getElem?_eq_getElem within] at same
    simpa using same
  · intro same index member
    have within := List.mem_range.mp member
    have letters := congrArg (·[index]?) same
    simp only [List.getElem?_map, List.getElem?_take, within, if_true, List.getElem?_drop] at letters
    rw [List.getElem?_eq_getElem (by omega), List.getElem?_eq_getElem within, Option.map_some, Option.map_some] at letters
    rw [List.getD_eq_getElem?_getD, List.getD_eq_getElem?_getD, List.getElem?_eq_getElem (by omega),
      List.getElem?_eq_getElem within]
    exact decide_eq_true (Option.some.inj letters)

private theorem containsCaseInsensitive_iff : containsCaseInsensitive haystack needle = true ↔ Occurs needle haystack := by
  unfold containsCaseInsensitive
  dsimp only
  split
  next none =>
    rw [List.length_eq_zero_iff] at none
    exact iff_of_true rfl ⟨[], [], haystack.bytes, rfl, by rw [none]⟩
  next some =>
    split
    next long =>
      refine iff_of_false Bool.false_ne_true fun occurs => ?_
      obtain ⟨front, middle, back, shape, same⟩ := occurs
      have length : middle.length = needle.bytes.length := by simpa using congrArg List.length same
      rw [shape, List.length_append, List.length_append, ← length] at long
      omega
    next short =>
      rw [List.any_eq_true]
      constructor
      · rintro ⟨place, inside, here⟩
        have room := List.mem_range.mp inside
        refine ⟨haystack.bytes.take place, _, (haystack.bytes.drop place).drop needle.bytes.length, ?_,
          (place_iff (by omega)).mp here⟩
        rw [List.append_assoc, List.take_append_drop, List.take_append_drop]
      · rintro ⟨front, middle, back, shape, same⟩
        have length : middle.length = needle.bytes.length := by simpa using congrArg List.length same
        have whole : haystack.bytes.length = front.length + middle.length + back.length :=
          by rw [shape, List.length_append, List.length_append]
        refine ⟨front.length, List.mem_range.mpr (by omega), (place_iff (by omega)).mpr ?_⟩
        rw [shape, List.append_assoc, List.drop_left, ← length, List.take_left, same]

private theorem entryMatchesSearch_iff : entryMatchesSearch entry query url = true ↔
    (∃ text ∈ entry.title :: entry.username :: entry.url :: entry.notes :: entry.urls, Occurs query text) ∧
      ∃ text ∈ entry.url :: entry.urls, Occurs url text := by
  have everywhere (needle first : CStr) (rest : List CStr) : needle = .empty →
    ∃ text ∈ first :: rest, Occurs needle text := by
    rintro rfl
    exact ⟨first, List.mem_cons_self, occurs_empty⟩
  simp only [entryMatchesSearch, Bool.and_eq_true]
  refine and_congr ?_ ?_
  · by_cases any : query = .empty
    · rw [if_neg (not_not.mpr any)]
      exact iff_of_true rfl (everywhere _ _ _ any)
    · rw [if_pos any]
      simp [containsCaseInsensitive_iff, or_assoc]
  · by_cases any : url = .empty
    · rw [if_neg (not_not.mpr any)]
      exact iff_of_true rfl (everywhere _ _ _ any)
    · rw [if_pos any]
      simp [containsCaseInsensitive_iff]

private theorem matchesScope_iff : payloadEntryGroupMatchesScope payload entry.groupId groupId includeDescendants = true ↔
    groupId = .empty ∨ entry.groupId = groupId ∨ includeDescendants = true ∧ entry.groupId ≠ .empty ∧
    Ascends payload entry.groupId groupId := by
  unfold payloadEntryGroupMatchesScope
  by_cases everything : groupId = .empty
  · simp [everything]
  by_cases root : entry.groupId = .empty
  · have apart : CStr.empty ≠ groupId := fun is => everything is.symm
    simp [everything, root, apart]
  by_cases same : entry.groupId = groupId
  · simp [everything, same]
  rw [if_neg everything, if_neg root, if_neg same, climbIndices_eq everything _ root]
  cases includeDescendants with
  | false => simp [everything, same]
  | true => simp [everything, same, root, climbGroups_ascends]

private theorem searchHits_eq : ∃ found : Entry →
    Bool, (∀ entry, found entry = true ↔ Found payload query url groupId includeDescendants entry) ∧
    searchHits payload query url groupId includeDescendants = payload.entries.filter found := by
  refine ⟨_, fun entry => ?_, rfl⟩
  rw [Bool.and_eq_true, entryMatchesSearch_iff, matchesScope_iff]
  exact ⟨fun both => ⟨both.1.1, both.1.2, both.2⟩, fun found => ⟨⟨found.texts, found.urls⟩, found.scope⟩⟩

end

def entryFields (entry : Entry) : List (String × Field) := [
  ("id", .text entry.id.bytes),
  ("title", .text entry.title.bytes),
  ("username", .text entry.username.bytes),
  ("password", .text entry.password.bytes),
  ("url", .text entry.url.bytes),
  ("notes", .text entry.notes.bytes),
  ("requiresFreshBiometric", .flag entry.requiresFreshBiometric),
  ("totp", .text (totpValue entry).bytes)]

def Lines (records : List (List (String × Field))) (text : Bytes) : Prop :=
  Writes (.array (records.map objectValue)) (records.flatMap memberTexts) text

/-- The first entry with the id. -/
def Names (payload : Payload) (entryId : CStr) (entry : Entry) : Prop :=
  entryId ≠ .empty ∧ payload.entries.find? (·.id = entryId) = some entry

def Searches (payload : Payload) (query url groupId : CStr) (includeDescendants : Bool) (text : Bytes) : Prop :=
  ∃ found : Entry → Bool, (∀ entry, found entry = true ↔ Found payload query url groupId includeDescendants entry) ∧
    Lines ((payload.entries.filter found).map searchFields) text

def Answers (payload : Payload) : ReadCall → Bytes → Prop
  | .search query url, text => Searches payload query url .empty false text
  | .searchAdvanced query url groupId includeDescendants, text => Searches payload query url groupId includeDescendants text
  | .getEntry entryId, text =>
    ∃ entry, Names payload entryId entry ∧ Writes (objectValue (entryFields entry)) (memberTexts (entryFields entry)) text
  | .listGroups memory, text => (payload.groups ≠ [] → memory = true) ∧ (Lists payload text ↔ Listable payload)
  | .getEntryHistory entryId, text => ∃ entry, Names payload entryId entry ∧ Lines (entry.history.map revisionFields) text
  | .listEntryAttachments entryId, text =>
    ∃ entry, Names payload entryId entry ∧ Lines (entry.attachmentRefs.map (attachmentFields payload)) text

def ReadCall.checked : ReadCall → Except MethodError Unit
  | .search _ _ => .ok ()
  | .searchAdvanced _ _ _ _ => .ok ()
  | .listGroups _ => .ok ()
  | .getEntry entryId => entryIdChecked entryId
  | .getEntryHistory entryId => entryIdChecked entryId
  | .listEntryAttachments entryId => entryIdChecked entryId

def ReadCall.fails : ReadCall → PmError → MethodError
  | .search _ _ => readFails "Vault search failed: %s"
  | .searchAdvanced _ _ _ _ => readFails "Vault advanced search failed: %s"
  | .getEntry _ => getFails
  | .listGroups _ => readFails "ListGroups failed: %s"
  | .getEntryHistory _ => readEntryFails "GetEntryHistory failed: %s"
  | .listEntryAttachments _ => readEntryFails "ListEntryAttachments failed: %s"

def ReadCall.build : ReadCall → VaultHandle → Except PmError Bytes
  | .search query url => buildSearchJson query url
  | .searchAdvanced query url groupId includeDescendants => buildSearchJsonScoped query url groupId includeDescendants
  | .getEntry entryId => fun contents => entryJson <$> readEntry entryId contents
  | .listGroups memory => buildGroupsJson memory
  | .getEntryHistory entryId => buildEntryHistoryJson entryId
  | .listEntryAttachments entryId => buildEntryAttachmentsJson entryId

section
variable {env : Env} {payload : Payload} {contents : VaultHandle} {entryId : CStr} {text : Bytes}

/-- All of the methods are the same around what they build. -/
theorem answerRead_eq (call : ReadCall) : answerRead env call = readVault env call.checked call.fails call.build := by
  cases call with
  | getEntry entryId =>
    funext slot
    unfold answerRead getEntry readVault ReadCall.checked ReadCall.fails ReadCall.build
    dsimp only
    cases entryIdChecked entryId with
    | error => rfl
    | ok =>
      dsimp only
      cases ensureUserVaultHandle env slot with
      | error stop => cases stop <;> rfl
      | ok handle =>
        dsimp only
        cases readEntry entryId handle.contents <;> rfl
  | search => rfl
  | searchAdvanced => rfl
  | listGroups => rfl
  | getEntryHistory => rfl
  | listEntryAttachments => rfl

private theorem entryJson_eq (entry : Entry) : entryJson entry = jsonObject (entryFields entry) := by
  simp [entryJson, jsonMember, jsonString, jsonObject, jsonMembers, entryFields, Field.json, ascii]

private theorem plainKeys_of {members : List (String × Field)}
    (plain : ∀ key ∈ members.map Prod.fst, ∀ byte ∈ ascii key, byte ≤ 127 ∧ byte ∉ escapedBytes) :
    PlainKeys members := fun _ inside => plain _ (List.mem_map_of_mem inside)

private theorem entryFields_plain (entry : Entry) : PlainKeys (entryFields entry) := plainKeys_of (by
  simp only [entryFields, List.map_cons, List.map_nil]
  decide +kernel)

private theorem searchFields_plain (entry : Entry) : PlainKeys (searchFields entry) := plainKeys_of (by
  simp only [searchFields, List.map_cons, List.map_nil]
  decide +kernel)

private theorem revisionFields_plain (rev : HistoryRevision) : PlainKeys (revisionFields rev) := plainKeys_of (by
  simp only [revisionFields, List.map_cons, List.map_nil]
  decide +kernel)

private theorem attachmentFields_plain (payload : Payload) (ref : AttachmentRef) :
    PlainKeys (attachmentFields payload ref) := plainKeys_of (by
  have known : (attachmentFields payload ref).map Prod.fst ∈
      [["id", "found"], ["id", "found", "name", "mime", "size"], ["id", "found", "name", "mime", "size", "sha256"]] := by
    unfold attachmentFields
    cases payloadFindAttachmentById payload ref.attachmentId with
    | none => simp
    | some attachment =>
      simp only [Option.map_some, attachmentDetails]
      generalize attachment.sha256 = digest
      cases digest <;> simp
  generalize (attachmentFields payload ref).map Prod.fst = keys at known
  simp only [List.mem_cons, List.not_mem_nil, or_false] at known
  obtain rfl | rfl | rfl := known <;> decide +kernel)

private theorem lines_of {item : Type} (items : List item) (fields : item → List (String × Field))
    (plain : ∀ item, PlainKeys (fields item)) :
    Lines (items.map fields) (jsonList (items.map fun item => jsonObject (fields item))) := by
  have each : ∀ record ∈ items.map fields, PlainKeys record := by
    intro record inside
    obtain ⟨item, -, rfl⟩ := List.mem_map.mp inside
    exact plain item
  have both : items.map (fun item => jsonObject (fields item)) = (items.map fields).map jsonObject := by simp
  rw [both]
  exact jsonList_writes each

private theorem searches_of (payload : Payload) (query url groupId : CStr) (includeDescendants : Bool) :
    Searches payload query url groupId includeDescendants
    (jsonList ((searchHits payload query url groupId includeDescendants).map fun entry => jsonObject
    (searchFields entry))) := by
  obtain ⟨found, means, hits⟩ := searchHits_eq
  rw [hits]
  exact ⟨found, means, lines_of _ _ searchFields_plain⟩

private theorem entryIdChecked_ok : entryIdChecked entryId = .ok () ↔ entryId ≠ .empty := by
  unfold entryIdChecked Format.ensure
  by_cases none : entryId = .empty <;> simp [none]

section
variable (model : vaultGetPayloadModel contents = (.ok payload, contents))
include model

/-- The entry of an id is read, or there is none. -/
theorem readEntry_iff {entry : Entry} : readEntry entryId contents = .ok entry ↔ Names payload entryId entry := by
  constructor
  · intro read
    obtain ⟨named, other, again, found, -⟩ := readEntry_ok read
    rw [model] at again
    cases again
    exact ⟨named, found⟩
  · rintro ⟨named, found⟩
    exact readEntry_of_found named model found

private theorem built_iff (entryId : CStr) {write : Entry → Bytes} {right : Entry → Bytes → Prop}
    (writes : ∀ entry, right entry (write entry)) :
    ((entryIdChecked entryId = .ok () ∧ ∃ text, (write <$> readEntry entryId contents) = .ok text) ↔
      ∃ text entry, Names payload entryId entry ∧ right entry text) ∧
    ∀ text, (write <$> readEntry entryId contents) = .ok text → ∃ entry, Names payload entryId entry ∧ right entry text := by
  have built (text : Bytes) : (write <$> readEntry entryId contents) = .ok text ↔
    ∃ entry, Names payload entryId entry ∧ write entry = text := by
    cases read : readEntry entryId contents with
    | error problem =>
      refine iff_of_false nofun fun named => ?_
      obtain ⟨entry, named, -⟩ := named
      rw [(readEntry_iff model).mpr named] at read
      cases read
    | ok entry =>
      have here := (readEntry_iff model).mp read
      constructor
      · intro same
        cases same
        exact ⟨entry, here, rfl⟩
      · rintro ⟨other, named, rfl⟩
        rw [(readEntry_iff model).mpr named] at read
        cases read
        rfl
  refine ⟨⟨?_, ?_⟩, ?_⟩
  · rintro ⟨-, text, some⟩
    obtain ⟨entry, named, rfl⟩ := (built text).mp some
    exact ⟨_, entry, named, writes entry⟩
  · rintro ⟨-, entry, named, -⟩
    exact ⟨entryIdChecked_ok.mpr named.1, write entry, (built _).mpr ⟨entry, named, rfl⟩⟩
  · intro text some
    obtain ⟨entry, named, rfl⟩ := (built text).mp some
    exact ⟨entry, named, writes entry⟩

/-- What is built is an answer, and it is built where there is one. -/
theorem build_iff (call : ReadCall) :
    ((call.checked = .ok () ∧ ∃ text, call.build contents = .ok text) ↔ ∃ text, Answers payload call text) ∧
      ∀ text, call.build contents = .ok text → Answers payload call text := by
  have searched (query url groupId : CStr) (includeDescendants : Bool) :
      (((Except.ok () : Except MethodError Unit) = .ok () ∧
        ∃ text, buildSearchJsonScoped query url groupId includeDescendants contents = .ok text) ↔
        ∃ text, Searches payload query url groupId includeDescendants text) ∧
      ∀ text, buildSearchJsonScoped query url groupId includeDescendants contents = .ok text →
        Searches payload query url groupId includeDescendants text := by
    have searches := searches_of payload query url groupId includeDescendants
    have built : buildSearchJsonScoped query url groupId includeDescendants contents =
        .ok (jsonList ((searchHits payload query url groupId includeDescendants).map fun entry => jsonObject
          (searchFields entry))) := by
      rw [buildSearchJsonScoped, model]
      rfl
    rw [built]
    refine ⟨iff_of_true ⟨rfl, _, rfl⟩ ⟨_, searches⟩, ?_⟩
    rintro text same
    cases same
    exact searches
  cases call with
  | search query url => exact searched query url .empty false
  | searchAdvanced query url groupId includeDescendants => exact searched query url groupId includeDescendants
  | getEntry entryId => exact built_iff model _ fun entry => entryJson_eq entry ▸ jsonObject_writes (entryFields_plain entry)
  | listGroups memory =>
    have lists := lists_iff payload
    have built := buildGroupsJson_of_model (congrArg Prod.fst model) memory
    simp only [ReadCall.checked, ReadCall.build, Answers, built]
    by_cases refused : payload.groups ≠ [] ∧ memory = false
    · rw [if_pos refused]
      refine ⟨iff_of_false (fun built => nomatch built.2) fun answer => ?_, nofun⟩
      obtain ⟨-, room, -⟩ := answer
      rw [room refused.1] at refused
      exact Bool.noConfusion refused.2
    · rw [if_neg refused]
      have room : payload.groups ≠ [] → memory = true := fun some => by
        cases memory with
        | true => rfl
        | false => exact absurd ⟨some, rfl⟩ refused
      refine ⟨iff_of_true ⟨trivial, _, rfl⟩ ⟨_, room, lists⟩, ?_⟩
      rintro text same
      cases same
      exact ⟨room, lists⟩
  | getEntryHistory entryId =>
    have iff := built_iff model entryId fun entry => lines_of entry.history revisionFields revisionFields_plain
    exact iff
  | listEntryAttachments entryId =>
    have same : buildEntryAttachmentsJson entryId contents =
        (fun entry : Entry => jsonList (entry.attachmentRefs.map fun ref => jsonObject (attachmentFields payload ref))) <$>
          readEntry entryId contents := by
      rw [buildEntryAttachmentsJson, model]
      rfl
    have iff := built_iff model entryId fun entry => lines_of entry.attachmentRefs (attachmentFields payload)
      (attachmentFields_plain payload)
    rw [← same] at iff
    exact iff

end
end

/-- The methods that read, one after the other. -/
def reader : Machine VaultSlot (Env × ReadCall) (Except Refusal Bytes) where
  step := fun (env, call) slot => answerRead env call slot
  halts
    | .error .fault => true
    | _ => false

def Readable (slot : VaultSlot) (payload : Payload) : Prop :=
  ∃ handle, slot.handle = some handle ∧ vaultGetPayloadModel handle.contents = (.ok payload, handle.contents)

/-- A read in a run that began in this slot: it changes no vault, it answers if and only if the
vault it began with has an answer, and with what that answer is. -/
structure ReadsFrom (start : VaultSlot) (event : Event VaultSlot (Env × ReadCall) (Except Refusal Bytes)) : Prop where
  file : event.after.file = start.file
  handle : ∀ handle, start.handle = some handle → event.after.handle = some handle
  answered : (∃ text, event.outcome = .ok text) ↔ ∃ payload, Readable start payload ∧
    ∃ text, Answers payload event.input.2 text
  right : ∀ text, event.outcome = .ok text → ∃ payload, Readable start payload ∧ Answers payload event.input.2 text
  unlockedAt : event.after.unlockedAt = if event.outcome.isOk then event.input.1.now else event.before.unlockedAt

/-- Between two reads: a handle that was there is there, and one that was not there is locked. -/
structure Untouched (start slot : VaultSlot) : Prop where
  file : slot.file = start.file
  handle : ∀ handle, start.handle = some handle → slot.handle = some handle
  closed : start.handle = none → ∀ handle, slot.handle = some handle → handle.contents.locked = true

section
variable {start slot : VaultSlot} {env : Env} {handle : Handle}

private theorem vaultOpen_closed {store : Store.Env} {file : Option Bytes} (made : vaultOpen store file = .ok handle) :
    handle.contents.locked = true := by
  simp only [vaultOpen, bind_eq_ok] at made
  obtain ⟨_, _, _, _, _, _, made⟩ := made
  cases made
  rfl

theorem ensured (found : ensureUserVaultHandle env slot = .ok handle) : slot.handle = some handle ∨
    slot.handle = none ∧ handle.contents.locked = true := by
  unfold ensureUserVaultHandle at found
  cases held : slot.handle with
  | some own =>
    rw [held] at found
    cases found
    exact .inl rfl
  | none =>
    rw [held] at found
    dsimp only at found
    split at found
    · exact .inr ⟨rfl, vaultOpen_closed found⟩
    · cases found

/-- What comes of a read: nothing, a handle that is opened, or an answer from an unlocked vault. -/
theorem readVault_cases (env : Env) (slot : VaultSlot) (checked : Except MethodError Unit) (fails : PmError →
    MethodError) (build : VaultHandle → Except PmError Bytes) :
    (∃ refusal, readVault env checked fails build slot = (.error refusal, slot)) ∨
    (∃ handle refusal, ensureUserVaultHandle env slot = .ok handle ∧
      readVault env checked fails build slot = (.error refusal, { slot with handle := some handle })) ∨
    ∃ handle text, ensureUserVaultHandle env slot = .ok handle ∧ checked = .ok () ∧ handle.contents.locked = false ∧
      build handle.contents = .ok text ∧
      readVault env checked fails build slot = (.ok text, { slot with handle := some handle, unlockedAt := env.now }) := by
  unfold readVault
  cases checked with
  | error error => exact .inl ⟨_, rfl⟩
  | ok =>
    cases ensureUserVaultHandle env slot with
    | error stop =>
      cases stop with
      | fault => exact .inl ⟨_, rfl⟩
      | error problem => exact .inl ⟨_, rfl⟩
    | ok handle =>
      dsimp only
      cases locked : handle.contents.locked with
      | true => exact .inr (.inl ⟨handle, _, rfl, rfl⟩)
      | false =>
        cases built : build handle.contents with
        | error problem => exact .inr (.inl ⟨handle, _, rfl, rfl⟩)
        | ok text => exact .inr (.inr ⟨handle, text, rfl, rfl, locked, built, rfl⟩)

private theorem readVault_ok {checked : Except MethodError Unit} {fails : PmError → MethodError} {build : VaultHandle →
    Except PmError Bytes}
    {text : Bytes} (fine : checked = .ok ()) (held : slot.handle = some handle) (unlocked : handle.contents.locked = false)
    (built : build handle.contents = .ok text) : (readVault env checked fails build slot).1 = .ok text := by
  simp [readVault, ensureUserVaultHandle, fine, held, unlocked, built]

theorem Untouched.opened (untouched : Untouched start slot) (found : ensureUserVaultHandle env slot = .ok handle)
    (unlockedAt : UInt64) :
    Untouched start { slot with handle := some handle, unlockedAt } where
  file := untouched.file
  handle own held := by
    obtain same | ⟨none, _⟩ := ensured found
    · rw [← same]
      exact untouched.handle own held
    · rw [untouched.handle own held] at none
      cases none
  closed none own held := by
    cases held
    obtain same | ⟨_, locked⟩ := ensured found
    · exact untouched.closed none _ same
    · exact locked

/-- A payload is only read from a vault that was unlocked when the run began. -/
theorem Untouched.readable (untouched : Untouched start slot) (found : ensureUserVaultHandle env slot = .ok handle)
    (unlocked : handle.contents.locked = false) : start.handle = some handle := by
  have held : slot.handle = some handle := by
    obtain same | ⟨_, locked⟩ := ensured found
    · exact same
    · rw [unlocked] at locked
      cases locked
  cases own : start.handle with
  | some first => rw [← held, untouched.handle first own]
  | none =>
    rw [untouched.closed own handle held] at unlocked
    cases unlocked

private theorem model_of_fst {contents : VaultHandle} {payload : Payload}
    (model : (vaultGetPayloadModel contents).1 = .ok payload) :
    vaultGetPayloadModel contents = (.ok payload, contents) := by
  rcases whole : vaultGetPayloadModel contents with ⟨outcome, last⟩
  rw [whole] at model
  cases model
  rw [(getPayloadModel_ok whole).1]

/-- Whatever is built, it is built from the payload. -/
theorem ReadCall.build_ok {call : ReadCall} {contents : VaultHandle} {text : Bytes} (built : call.build contents = .ok text) :
    ∃ payload, vaultGetPayloadModel contents = (.ok payload, contents) := by
  have searched {query url groupId : CStr} {includeDescendants : Bool}
      (built : buildSearchJsonScoped query url groupId includeDescendants contents = .ok text) :
      ∃ payload, vaultGetPayloadModel contents = (.ok payload, contents) := by
    obtain ⟨payload, model, -⟩ := bind_eq_ok.mp built
    exact ⟨payload, model_of_fst model⟩
  have read {entryId : CStr} {entry : Entry} (read : readEntry entryId contents = .ok entry) :
      ∃ payload, vaultGetPayloadModel contents = (.ok payload, contents) := by
    obtain ⟨-, payload, model, -⟩ := readEntry_ok read
    exact ⟨payload, model⟩
  cases call with
  | search => exact searched built
  | searchAdvanced => exact searched built
  | getEntry entryId =>
    cases found : readEntry entryId contents with
    | error problem =>
      simp only [ReadCall.build, found] at built
      cases built
    | ok entry => exact read found
  | listGroups memory =>
    cases model : (vaultGetPayloadModel contents).1 with
    | error problem =>
      simp only [ReadCall.build, buildGroupsJson, model] at built
      cases built
    | ok payload => exact ⟨payload, model_of_fst model⟩
  | getEntryHistory entryId =>
    obtain ⟨entry, found, -⟩ := bind_eq_ok.mp built
    exact read found
  | listEntryAttachments entryId =>
    obtain ⟨payload, model, -⟩ := bind_eq_ok.mp built
    exact ⟨payload, model_of_fst model⟩

private theorem answerRead_right (untouched : Untouched start slot) {call : ReadCall} {text : Bytes}
    (answer : (answerRead env call slot).1 = .ok text) :
    ∃ payload, Readable start payload ∧ Answers payload call text := by
  rw [answerRead_eq] at answer
  obtain ⟨refusal, is⟩ | ⟨handle, refusal, -, is⟩ | ⟨handle, written, found, -, unlocked, built, is⟩ :=
    readVault_cases env slot call.checked call.fails call.build
  · rw [is] at answer
    cases answer
  · rw [is] at answer
    cases answer
  · rw [is] at answer
    cases answer
    obtain ⟨payload, model⟩ := ReadCall.build_ok built
    exact ⟨payload, ⟨handle, untouched.readable found unlocked, model⟩, (build_iff model call).2 _ built⟩

private theorem answerRead_answers (untouched : Untouched start slot) {call : ReadCall} {payload : Payload} {text : Bytes}
    (readable : Readable start payload) (answers : Answers payload call text) : ∃ text,
    (answerRead env call slot).1 = .ok text := by
  obtain ⟨handle, held, model⟩ := readable
  obtain ⟨checked, written, built⟩ := (build_iff model call).1.mpr ⟨text, answers⟩
  rw [answerRead_eq]
  exact ⟨written, readVault_ok checked (untouched.handle handle held) (getPayloadModel_ok model).2.1 built⟩

private theorem answerRead_untouched (env : Env) (untouched : Untouched start slot) (call : ReadCall) :
    Untouched start (answerRead env call slot).2 ∧
    (answerRead env call slot).2.unlockedAt = if (answerRead env call slot).1.isOk then env.now else slot.unlockedAt := by
  rw [answerRead_eq]
  obtain ⟨refusal, is⟩ | ⟨handle, refusal, found, is⟩ | ⟨handle, written, found, -, -, -, is⟩ :=
    readVault_cases env slot call.checked call.fails call.build
  · rw [is]
    exact ⟨untouched, rfl⟩
  · rw [is]
    exact ⟨untouched.opened found slot.unlockedAt, rfl⟩
  · rw [is]
    exact ⟨untouched.opened found env.now, rfl⟩

private theorem answerRead_reads (untouched : Untouched start slot) (call : Env × ReadCall) :
    Untouched start (reader.event slot call).after ∧ ReadsFrom start (reader.event slot call) := by
  obtain ⟨kept, unlockedAt⟩ := answerRead_untouched call.1 untouched call.2
  refine ⟨kept, kept.file, kept.handle, ⟨?_, ?_⟩, fun text answer => answerRead_right untouched answer, unlockedAt⟩
  · rintro ⟨text, answer⟩
    obtain ⟨payload, readable, answers⟩ := answerRead_right untouched answer
    exact ⟨payload, readable, text, answers⟩
  · rintro ⟨payload, readable, text, answers⟩
    exact answerRead_answers untouched readable answers

end

/-- Reads leave the vault as it is, however many there are, and each of them answers what the
vault held when they began. -/
theorem reads_answer_vault (start : VaultSlot) (calls : List (Env × ReadCall)) :
    Throughout (reader.run start calls) fun _ event => ReadsFrom start event :=
  Machine.run_every (fun _ slot => Untouched start slot) (fun _ _ call untouched => (answerRead_reads untouched call).1)
    (fun _ _ call untouched => (answerRead_reads untouched call).2)
    ⟨rfl, fun _ held => held, fun none _ held => nomatch none.symm.trans held⟩ calls

end Hiya.Daemon.Vaults
