import Hiya.Library.Slot
import Hiya.Pm.PayloadDecode
import Hiya.Proofs.CborSkip
import Hiya.Proofs.PayloadShape

/-! What the payload reader makes of the tokens the writer emits: the rules for
single values, lists and records. A record is read field by field, so its rule
follows a chain of states from the empty record to the finished one. -/

namespace Hiya.Pm
open Library Cbor

variable {α β : Type}

def Solid (tokens : List Token) : Prop := tokens ≠ [] ∧ ∀ token ∈ tokens, token ≠ .raw []

theorem Token.bytes_ne_nil {token : Token} (whole : token ≠ .raw []) : token.bytes ≠ [] := by
  cases token with
  | raw data => exact fun empty => whole (congrArg Token.raw empty)
  | text value => exact List.append_ne_nil_of_left_ne_nil (headBytes_ne_nil _ _) _
  | bstr data => exact List.append_ne_nil_of_left_ne_nil (headBytes_ne_nil _ _) _
  | _ => exact headBytes_ne_nil _ _

namespace Solid

theorem bytesOf_pos {tokens : List Token} (solid : Solid tokens) : 0 < (bytesOf tokens).length := by
  cases tokens with
  | nil => exact absurd rfl solid.1
  | cons token rest =>
    have first := List.length_pos_iff.mpr (Token.bytes_ne_nil (solid.2 token (by simp)))
    rw [bytesOf_cons, List.length_append]
    omega

theorem one {token : Token} (whole : token ≠ .raw []) : Solid [token] :=
  ⟨List.cons_ne_nil _ _, by simpa using whole⟩

theorem cons {token : Token} {rest : List Token} (whole : token ≠ .raw [])
    (others : ∀ later ∈ rest, later ≠ .raw []) : Solid (token :: rest) :=
  ⟨List.cons_ne_nil _ _, by simpa using ⟨whole, others⟩⟩

end Solid

structure Decodes (body : Read α) (tokens : List Token) (value : α) : Prop where
  solid : Solid tokens
  reads : Reads body (bytesOf tokens) value

theorem Decodes.map {body : Read α} {tokens : List Token} {value : α} (change : α → β)
    (start : Decodes body tokens value) :
    Decodes (body >>= fun result => pure (change result)) tokens (change value) :=
  ⟨start.solid, start.reads.map change⟩

theorem decodes_uint (value : UInt64) : Decodes decodeUintValue [.uint value] value where
  solid := .one (by simp)
  reads := by simpa [Token.bytes, decodeUintValue] using (reads_uint value).orFail

theorem decodes_bool (value : Bool) : Decodes decodeBoolValue [.bool value] value where
  solid := .one (by simp)
  reads := by simpa [Token.bytes, decodeBoolValue] using (reads_bool value).orFail

theorem CStr.length_lt (text : CStr) : text.bytes.length < 2 ^ 64 := by
  have short := text.short
  unfold sizeMax at short
  omega

theorem dupBytesAsCstr_bytes (text : CStr) : dupBytesAsCstr text.bytes = some text := by
  have whole : text.bytes.takeWhile (· ≠ 0) = text.bytes := by
    rw [List.takeWhile_eq_self_iff]
    intro byte member
    have nonzero : byte ≠ 0 := by
      rintro rfl
      exact text.clean member
    simpa using nonzero
  rw [dupBytesAsCstr, dif_pos text.short]
  exact congrArg some (CStr.ext_bytes whole)

private theorem reads_tstrValue (text : CStr) :
    Reads (decodeTstr.orFail PmError.deserialize) (bytesOf [.text text]) text.bytes := by
  simpa [Token.bytes] using (reads_tstr text.bytes text.length_lt).orFail

theorem decodes_textItem (text : CStr) : Decodes decodeTextItem [.text text] text where
  solid := .one (by simp)
  reads := by
    refine (reads_tstrValue text).andThen ?_
    simp only [dupText, dupBytesAsCstr_bytes]
    exact .pure _

theorem decodes_text (text : CStr) : Decodes (decodeTextInto none) [.text text] (some text) where
  solid := .one (by simp)
  reads := by
    refine (reads_tstrValue text).andThen ?_
    simp only [dupText, dupBytesAsCstr_bytes, Option.isSome_none, Bool.false_eq_true, if_false, pure_bind]
    exact .pure _

theorem reads_bstrValue (data : Bytes) (small : data.length < 2 ^ 64) :
    Reads (decodeBstr.orFail PmError.deserialize) (bytesOf [.bstr data]) data := by
  simpa [Token.bytes] using (reads_bstr data small).orFail

def RawItem (data : Bytes) : Prop := Reads skip data ()

theorem RawItem.ne_nil {data : Bytes} (item : RawItem data) : data ≠ [] := by
  rintro rfl
  have done := item (Decoder.init []) [] rfl rfl
  cases done

theorem decodes_capture {data : Bytes} (item : RawItem data) : Decodes captureNextItem [.raw data] data where
  solid := .one (by simpa using item.ne_nil)
  reads := by
    rw [show bytesOf [.raw data] = data by simp [Token.bytes]]
    intro dec rest clear here
    have bound := Decoder.offset_le here item.ne_nil
    have positive := List.length_pos_iff.mpr item.ne_nil
    have skipped : Proc.orFail PmError.deserialize skip dec = (.ok (), dec.advance data.length) :=
      Proc.orFail_eq_ok.mpr (item dec rest clear here)
    have taken : (dec.data.drop dec.offset).take ((dec.advance data.length).offset - dec.offset) = data := by
      have ahead : dec.data.drop dec.offset = data ++ rest := here
      simp [ahead, Decoder.advance]
    have proper : ¬((dec.advance data.length).offset ≤ dec.offset ∨
        (dec.advance data.length).offset > (dec.advance data.length).data.length) := by
      simp only [Decoder.advance]
      omega
    unfold captureNextItem
    rw [Proc.bind_of_ok (Proc.get_apply dec), Proc.bind_of_ok skipped, Proc.bind_of_ok (Proc.get_apply _), if_neg proper]
    exact congrArg (fun bytes => (Except.ok bytes, dec.advance data.length)) taken

theorem decodes_unknown {data : Bytes} (item : RawItem data) (key : UInt64) {fields : List UnknownField}
    (few : fields.length < maxUnknownFields) :
    Decodes (decodeUnknownField key fields) [.raw data] (fields ++ [⟨key, data⟩]) where
  solid := (decodes_capture item).solid
  reads := by
    refine (decodes_capture item).reads.andThen ?_
    have room : ¬fields.length ≥ maxUnknownFields := by omega
    simp only [unknownFieldsAppend, if_neg item.ne_nil, if_neg room, lift]
    exact .pure _

section Lists

private theorem readsAhead_count {limit count : Nat} (few : count ≤ limit) (small : count < 2 ^ 64) :
    ReadsAhead count (decodeCount limit) (headBytes .array count) count := by
  intro dec rest clear here room
  have read : decodeArray.orFail PmError.deserialize dec = (.ok count, dec.advance (headBytes .array count).length) :=
    (readsAhead_array count small).orFail dec rest clear here room
  unfold decodeCount
  rw [Proc.bind_of_ok read, if_neg (by omega)]
  rfl

private theorem length_le_flatMap {tokens : α → List Token} {items : List α}
    (solid : ∀ item ∈ items, Solid (tokens item)) : items.length ≤ (bytesOf (items.flatMap tokens)).length := by
  induction items with
  | nil => simp
  | cons item rest ih =>
    have first := (solid item (by simp)).bytesOf_pos
    have others := ih fun later member => solid later (List.mem_cons_of_mem item member)
    rw [List.flatMap_cons, bytesOf_append, List.length_append, List.length_cons]
    omega

/-- A loop over list items. The step may rely on where the items before led. -/
private theorem reads_loop {body : Read α} {tokens : α → List Token} {step : β → α → Read β} {next : β → α → β}
    {items : List α} {start : β} (each : ∀ item ∈ items, Decodes body (tokens item) item)
    (steps : ∀ front item back, items = front ++ item :: back →
      Reads (step (front.foldl next start) item) [] (next (front.foldl next start) item)) :
    Reads (Proc.repeatWith items.length (fun acc => body >>= step acc) start) (bytesOf (items.flatMap tokens))
      (items.foldl next start) := by
  induction items generalizing start with
  | nil => exact .pure start
  | cons item rest ih =>
    have later := ih (fun other member => each other (List.mem_cons_of_mem item member))
      fun front other back split => steps (item :: front) other back (congrArg (List.cons item) split)
    rw [List.flatMap_cons, bytesOf_append]
    exact ((each item (by simp)).reads.andThen (steps [] item rest rfl)).bind later

private theorem foldl_append (items acc : List α) : items.foldl (fun acc item => acc ++ [item]) acc = acc ++ items := by
  induction items generalizing acc with
  | nil => simp
  | cons item rest ih => simp [ih]

theorem solid_list {tokens : α → List Token} {items : List α} (solid : ∀ item ∈ items, Solid (tokens item)) :
    Solid (listTokens tokens items) := by
  refine .cons (by simp) fun token member => ?_
  obtain ⟨item, inside, part⟩ := List.mem_flatMap.mp member
  exact (solid item inside).2 token part

variable {body : Read α} {tokens : α → List Token} {items : List α} {limit : Nat}

private theorem reads_items (each : ∀ item ∈ items, Decodes body (tokens item) item) :
    Reads (decodeItems body items.length) (bytesOf (items.flatMap tokens)) items := by
  have loop : Reads (decodeItems body items.length) (bytesOf (items.flatMap tokens))
      (items.foldl (fun acc item => acc ++ [item]) []) := reads_loop each fun _ _ _ _ => .pure _
  rwa [foldl_append, List.nil_append] at loop

theorem decodes_list (each : ∀ item ∈ items, Decodes body (tokens item) item) (few : items.length ≤ limit)
    (small : limit < 2 ^ 64) : Decodes (decodeList limit body) (listTokens tokens items) items where
  solid := solid_list fun item member => (each item member).solid
  reads := by
    have long := length_le_flatMap fun item member => (each item member).solid
    exact (readsAhead_count few (by omega)).bind long (reads_items each)

theorem decodes_texts {texts : List CStr} (few : texts.length ≤ limit) (small : limit < 2 ^ 64) :
    Decodes (decodeListInto limit []) (listTokens textTokens texts) texts where
  solid := solid_list fun text _ => (decodes_textItem text).solid
  reads := by
    have each (text : CStr) (_ : text ∈ texts) : Decodes decodeTextItem (textTokens text) text := decodes_textItem text
    have long := length_le_flatMap fun text member => (each text member).solid
    exact (readsAhead_count few (by omega)).bind long (reads_items each)

/-- Items read one by one into a payload, as the payload's own lists are. -/
theorem decodes_appending (slot : Slot Payload α) {append : Payload → α → Except PmError Payload} {payload : Payload}
    (empty : slot.get payload = []) (each : ∀ item ∈ items, Decodes body (tokens item) item)
    (few : items.length ≤ limit) (small : limit < 2 ^ 64)
    (appends : ∀ record item, item ∈ items → (slot.get record).length < limit →
      append record item = .ok (slot.push record item)) :
    Decodes (decodeAppending limit body append payload) (listTokens tokens items) (slot.put items payload) where
  solid := solid_list fun item member => (each item member).solid
  reads := by
    have long := length_le_flatMap fun item member => (each item member).solid
    have loop : Reads (Proc.repeatWith items.length (fun record => do lift (append record (← body))) payload)
        (bytesOf (items.flatMap tokens)) (items.foldl slot.push payload) := by
      refine reads_loop each fun front item back split => ?_
      have room : (slot.get (front.foldl slot.push payload)).length < limit := by
        rw [split, List.length_append, List.length_cons] at few
        rw [slot.foldl_push, slot.get_put, empty, List.nil_append]
        omega
      simp only [appends _ item (by simp [split]) room, lift]
      exact .pure _
    rw [slot.foldl_push, empty, List.nil_append] at loop
    exact (readsAhead_count few (by omega)).bind long loop

end Lists

/-- Reading the fields of a record one after another leads from one state of the
record to another. -/
inductive Links (field : UInt64 → α → Read α) : α → List Field → α → Prop
  | nil (record : α) : Links field record [] record
  | cons {first middle last : α} {key : UInt64} {tokens : List Token} {rest : List Field}
      (head : Decodes (field key first) tokens middle) (tail : Links field middle rest last) :
      Links field first ((key, tokens) :: rest) last

namespace Links
variable {field : UInt64 → α → Read α}

theorem append {first middle last : α} {front back : List Field} (one : Links field first front middle)
    (other : Links field middle back last) : Links field first (front ++ back) last := by
  induction one with
  | nil => exact other
  | cons head _ ih => exact .cons head (ih other)

theorem solid {first last : α} {fields : List Field} (links : Links field first fields last) :
    ∀ token ∈ fields.flatMap fieldTokens, token ≠ .raw [] := by
  induction links with
  | nil => simp
  | @cons _ _ _ key tokens rest head _ ih =>
    intro token member
    rw [List.flatMap_cons, List.mem_append, fieldTokens, List.mem_cons] at member
    rcases member with (rfl | inside) | later
    · simp
    · exact head.solid.2 token inside
    · exact ih token later

theorem long {first last : α} {fields : List Field} (links : Links field first fields last) :
    fields.length * 2 ≤ (bytesOf (fields.flatMap fieldTokens)).length := by
  induction links with
  | nil => simp
  | @cons _ _ _ key tokens rest head _ ih =>
    have keyBytes := List.length_pos_iff.mpr (headBytes_ne_nil .uint key.toNat)
    have valueBytes := head.solid.bytesOf_pos
    simp only [List.flatMap_cons, fieldTokens, bytesOf_append, bytesOf_cons, Token.bytes, List.length_append,
      List.length_cons]
    omega

theorem reads {first last : α} {fields : List Field} (links : Links field first fields last) :
    Reads (Proc.repeatWith fields.length (fun record => do field (← decodeUintValue) record) first)
      (bytesOf (fields.flatMap fieldTokens)) last := by
  induction links with
  | nil => exact .pure _
  | @cons first middle _ key tokens rest head _ ih =>
    have pair : Reads (do field (← decodeUintValue) first) (bytesOf [.uint key] ++ bytesOf tokens) middle :=
      (decodes_uint key).reads.bind head.reads
    rw [← bytesOf_append] at pair
    rw [List.flatMap_cons, bytesOf_append]
    exact pair.bind ih

end Links

theorem decodes_fields {field : UInt64 → α → Read α} {first last : α} {fields : List Field}
    (links : Links field first fields last) (small : fields.length < 2 ^ 64) :
    Decodes (decodeFields field first) (recordTokens fields) last where
  solid := .cons (by simp) links.solid
  reads := (readsAhead_map fields.length small).orFail.bind links.long links.reads

structure UnknownFieldsOk (known : Nat) (fields : List UnknownField) : Prop where
  few : fields.length ≤ maxUnknownFields
  foreign : ∀ field ∈ fields, field.key.toNat = 0 ∨ known < field.key.toNat
  items : ∀ field ∈ fields, RawItem field.valueCbor

def KeepsUnknown (field : UInt64 → α → Read α) (slot : Slot α UnknownField) (known : Nat) : Prop :=
  ∀ key record, key.toNat = 0 ∨ known < key.toNat →
    field key record = decodeUnknownField key (slot.get record) >>= fun fields => pure (slot.put fields record)

theorem links_unknown {field : UInt64 → α → Read α} {slot : Slot α UnknownField} {known : Nat}
    (keeps : KeepsUnknown field slot known) {fields : List UnknownField} (record : α)
    (foreign : ∀ field ∈ fields, field.key.toNat = 0 ∨ known < field.key.toNat)
    (items : ∀ field ∈ fields, RawItem field.valueCbor)
    (few : (slot.get record).length + fields.length ≤ maxUnknownFields) :
    Links field record (unknownFieldsOf fields) (slot.put (slot.get record ++ fields) record) := by
  induction fields generalizing record with
  | nil =>
    rw [List.append_nil, slot.put_get]
    exact .nil record
  | cons unknown rest ih =>
    rw [List.length_cons] at few
    have read : Decodes (decodeUnknownField unknown.key (slot.get record)) [.raw unknown.valueCbor]
        (slot.get record ++ [unknown]) := decodes_unknown (items unknown (by simp)) unknown.key (by omega)
    have step := read.map fun fields => slot.put fields record
    rw [← keeps unknown.key record (foreign unknown (by simp))] at step
    refine .cons step ?_
    have later := ih (slot.put (slot.get record ++ [unknown]) record)
      (fun other member => foreign other (List.mem_cons_of_mem unknown member))
      (fun other member => items other (List.mem_cons_of_mem unknown member))
      (by rw [slot.get_put, List.length_append, List.length_singleton]; omega)
    rwa [slot.get_put, slot.put_put, List.append_assoc, List.singleton_append] at later

end Hiya.Pm
