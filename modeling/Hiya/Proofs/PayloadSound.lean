import Hiya.Library.Ends
import Hiya.Proofs.PayloadRecords

/-! Whatever the payload reader accepts is well formed: every limit is kept and every
raw value is one complete item. -/

namespace Hiya.Pm
open Library Cbor
open Proc (Ensures)

variable {α : Type}

theorem ensures_lift {outcome : Except PmError α} {post : α → Prop}
    (holds : ∀ value, outcome = .ok value → post value) : Ensures (lift outcome) post := by
  cases outcome with
  | ok value => exact .pure (holds value rfl)
  | error problem => exact .fail

theorem ensures_capture : Ensures captureNextItem RawItem := by
  intro dec data last done
  unfold captureNextItem at done
  rw [Proc.bind_of_ok (Proc.get_apply dec)] at done
  obtain ⟨_, middle, skipped, rest⟩ := Proc.bind_eq_ok.mp done
  obtain ⟨bytes, long, here, moved, reads⟩ := local_skip dec _ middle (Proc.orFail_eq_ok.mp skipped)
  rw [Proc.bind_of_ok (Proc.get_apply middle)] at rest
  split at rest
  · cases rest
  · have same : (middle.data.drop dec.offset).take (middle.offset - dec.offset) = bytes := by
      have ahead : dec.data.drop dec.offset = bytes ++ middle.rest := here
      simp [moved, Decoder.advance, ahead]
    rw [same] at rest
    cases rest
    exact reads

theorem UnknownFieldsOk.nil (known : Nat) : UnknownFieldsOk known [] where
  few := Nat.zero_le _
  foreign := by simp
  items := by simp

theorem ensures_unknown {known : Nat} {key : UInt64} {fields : List UnknownField} (ok : UnknownFieldsOk known fields)
    (foreign : key.toNat = 0 ∨ known < key.toNat) :
    Ensures (decodeUnknownField key fields) (UnknownFieldsOk known) := by
  refine ensures_capture.bind fun data item => ensures_lift fun result appended => ?_
  unfold unknownFieldsAppend at appended
  split at appended
  · cases appended
  split at appended
  · cases appended
  next room =>
    cases appended
    refine ⟨?_, ?_, ?_⟩
    · rw [List.length_append, List.length_singleton]
      omega
    · intro field member
      rcases List.mem_append.mp member with old | new
      · exact ok.foreign field old
      · rw [List.mem_singleton.mp new]
        exact foreign
    · intro field member
      rcases List.mem_append.mp member with old | new
      · exact ok.items field old
      · rw [List.mem_singleton.mp new]
        exact item

private theorem mem_append_one {post : α → Prop} {items : List α} {value : α} (old : ∀ item ∈ items, post item)
    (new : post value) : ∀ item ∈ items ++ [value], post item := by
  intro item member
  rcases List.mem_append.mp member with inside | last
  · exact old item inside
  · rw [List.mem_singleton.mp last]
    exact new

private theorem ensures_itemsFrom {body : Read α} {post : α → Prop} (item : Ensures body post) (count : Nat)
    (acc : List α) (old : ∀ value ∈ acc, post value) :
    Ensures (Proc.repeatWith count (fun items => do pure (items ++ [← body])) acc)
      fun items => items.length = acc.length + count ∧ ∀ value ∈ items, post value := by
  induction count generalizing acc with
  | zero => exact .pure ⟨rfl, old⟩
  | succ count ih =>
    have step : Ensures (body >>= fun value => pure (acc ++ [value])) fun items =>
        items.length = acc.length + 1 ∧ ∀ value ∈ items, post value :=
      item.bind fun value holds => .pure ⟨by simp, mem_append_one old holds⟩
    refine step.bind fun items ⟨length, holds⟩ => ?_
    have later := ih items holds
    rw [length, Nat.add_assoc, Nat.add_comm 1 count] at later
    exact later

private theorem ensures_count (limit : Nat) : Ensures (decodeCount limit) fun count => count ≤ limit := by
  refine .after fun count => .ite (fun _ => .fail) fun within => .pure ?_
  omega

theorem ensures_list {body : Read α} {post : α → Prop} (item : Ensures body post) (limit : Nat) :
    Ensures (decodeList limit body) fun items => items.length ≤ limit ∧ ∀ value ∈ items, post value := by
  refine (ensures_count limit).bind fun count few => ?_
  intro dec items last done
  obtain ⟨length, holds⟩ := ensures_itemsFrom item count [] (by simp) dec items last done
  rw [List.length_nil, Nat.zero_add] at length
  exact ⟨by omega, holds⟩

theorem ensures_texts (limit : Nat) (texts : List CStr) :
    Ensures (decodeListInto limit texts) fun items => items.length ≤ limit := by
  refine (ensures_count limit).bind fun count few => .ite (fun _ => .fail) fun _ => ?_
  intro dec items last done
  obtain ⟨length, _⟩ := ensures_itemsFrom (.trivial decodeTextItem) count [] (by simp) dec items last done
  rw [List.length_nil, Nat.zero_add] at length
  omega

theorem ensures_fields {field : UInt64 → α → Read α} {invariant : α → Prop} {start : α} (initial : invariant start)
    (kept : ∀ key record, invariant record → Ensures (field key record) invariant) :
    Ensures (decodeFields field start) invariant :=
  .after fun count => Ensures.repeatWith (fun record holds => .after fun key => kept key record holds) count start initial

/-- A string is no longer than its 64-bit length field can say. -/
theorem ensures_bstr : Ensures (decodeBstr.orFail PmError.deserialize) fun data => data.length < 2 ^ 64 := by
  refine .orFail ?_
  unfold decodeBstr
  rw [decodeNext_eq, bind_assoc]
  refine .after fun head => ?_
  unfold decodeItem
  cases head.major with
  | bstr =>
    simp only [bind_assoc, pure_bind]
    intro dec data last done
    obtain ⟨read, middle, one, other⟩ := Proc.bind_eq_ok.mp done
    unfold decString at one
    rw [Proc.bind_of_ok (Proc.get_apply dec)] at one
    split at one
    · cases one
    · cases one
      cases other
      have bound := head.argument.toNat_lt
      rw [List.length_take]
      omega
  | uint => exact .fail
  | negint => exact .fail
  | tag => exact .fail
  | tstr =>
    simp only [bind_assoc, pure_bind]
    exact .after fun _ => .fail
  | array =>
    simp only [bind_assoc, pure_bind]
    exact .after fun _ => .fail
  | map =>
    simp only [bind_assoc, pure_bind]
    exact .after fun _ => .fail
  | simple =>
    simp only
    split
    · exact .fail
    split
    · exact .fail
    split
    · exact .fail
    · exact .fail

theorem ensures_customField : Ensures decodeCustomField CustomFieldOk := by
  have kept (key : UInt64) (field : CustomFieldOf (Option CStr)) (ok : CustomFieldOk field) :
      Ensures (decodeCustomFieldField key field) CustomFieldOk := by
    unfold decodeCustomFieldField
    split
    -- fields without conditions keep the invariant at once
    all_goals first
      | exact .after fun _ => .pure { ok with }
      | skip
    · refine .after fun value => ?_
      cases CustomFieldType.ofCode? value with
      | none => exact .fail
      | some type => exact .pure { ok with }
    · exact (ensures_unknown ok.unknown (by grind)).bind fun fields holds => .pure { ok with unknown := holds }
  exact (ensures_fields ⟨.nil 5⟩ kept).bind fun field ok => .pure { ok with }

theorem ensures_attachmentRef : Ensures decodeAttachmentRef AttachmentRefOk := by
  have kept (key : UInt64) (ref : AttachmentRefOf (Option CStr)) (ok : AttachmentRefOk ref) :
      Ensures (decodeAttachmentRefField key ref) AttachmentRefOk := by
    unfold decodeAttachmentRefField
    split
    · exact .after fun _ => .pure { ok with }
    · exact (ensures_unknown ok.unknown (by grind)).bind fun fields holds => .pure { ok with unknown := holds }
  exact (ensures_fields ⟨.nil 1⟩ kept).bind fun ref ok => .pure { ok with }

theorem ensures_historyRevision : Ensures decodeHistoryRevision HistoryRevisionOk := by
  have kept (key : UInt64) (revision : HistoryRevisionOf (Option CStr)) (ok : HistoryRevisionOk revision) :
      Ensures (decodeHistoryRevisionField key revision) HistoryRevisionOk := by
    unfold decodeHistoryRevisionField
    split
    all_goals first
      | exact .after fun _ => .pure { ok with }
      | skip
    · exact (ensures_list (.trivial decodeTextItem) maxTagsPerEntry).bind fun tags few =>
        .pure { ok with tags := few.1 }
    · exact (ensures_unknown ok.unknown (by grind)).bind fun fields holds => .pure { ok with unknown := holds }
  exact (ensures_fields ⟨.nil 14, Nat.zero_le _⟩ kept).bind fun revision ok => .pure { ok with }

theorem ensures_attachment : Ensures decodeAttachment AttachmentOk := by
  have kept (key : UInt64) (attachment : AttachmentOf (Option CStr)) (ok : AttachmentPartsOk attachment) :
      Ensures (decodeAttachmentField key attachment) AttachmentPartsOk := by
    unfold decodeAttachmentField
    split
    all_goals first
      | exact .after fun _ => .pure { ok with }
      | skip
    · have blob : Ensures (decodeBlob attachment.blob) fun data => data.length < 2 ^ 64 :=
        ensures_bstr.bind fun data small => .ite (fun _ => .fail) fun _ => .pure small
      exact blob.bind fun data small => .pure { ok with blob := small }
    · exact (ensures_unknown ok.unknown (by grind)).bind fun fields holds => .pure { ok with unknown := holds }
  refine (ensures_fields ⟨.nil 6, by decide⟩ kept).bind fun attachment ok => .pure ⟨⟨ok.unknown, ok.blob⟩, ?_⟩
  intro zero
  simp only at zero ⊢
  split at zero
  next => exact zero
  next nonzero => exact absurd zero nonzero

theorem ensures_group : Ensures decodeGroup GroupOk := by
  have kept (key : UInt64) (group : GroupOf (Option CStr)) (ok : GroupOk group) :
      Ensures (decodeGroupField key group) GroupOk := by
    unfold decodeGroupField
    split
    all_goals first
      | exact .after fun _ => .pure { ok with }
      | skip
    · exact ensures_capture.bind fun data item => .pure { ok with customData := .inr item }
    · exact (ensures_unknown ok.unknown (by grind)).bind fun fields holds => .pure { ok with unknown := holds }
  exact (ensures_fields ⟨.nil 10, .inl rfl⟩ kept).bind fun group ok => .pure { ok with }

theorem ensures_recycleBin : Ensures decodeRecycleBin RecycleBinOk := by
  have kept (key : UInt64) (bin : RecycleBinOf (Option CStr)) (ok : RecycleBinOk bin) :
      Ensures (decodeRecycleBinField key bin) RecycleBinOk := by
    unfold decodeRecycleBinField
    split
    all_goals first
      | exact .after fun _ => .pure { ok with }
      | skip
    · exact (ensures_unknown ok.unknown (by grind)).bind fun fields holds => .pure { ok with unknown := holds }
  exact (ensures_fields ⟨.nil 3⟩ kept).bind fun bin ok => .pure { ok with }

theorem ensureUrlAlias_primary (url : Option CStr) (urls : List CStr) :
    (ensureUrlAlias url urls).1 = (ensureUrlAlias url urls).2.headD .empty := by
  cases urls with
  | cons first rest => simp [ensureUrlAlias]
  | nil =>
    cases url with
    | none => simp [ensureUrlAlias]
    | some url =>
      by_cases empty : url = .empty
      · simp [ensureUrlAlias, empty]
      · simp [ensureUrlAlias, empty]

theorem ensureUrlAlias_length (url : Option CStr) {urls : List CStr} (few : urls.length ≤ maxUrlsPerEntry) :
    (ensureUrlAlias url urls).2.length ≤ maxUrlsPerEntry := by
  unfold ensureUrlAlias
  simp only
  split
  · exact Nat.succ_le_of_lt (by decide)
  · exact few

theorem ensures_entry : Ensures decodeEntry EntryOk := by
  have kept (key : UInt64) (entry : EntryOf (Option CStr)) (ok : EntryPartsOk entry) :
      Ensures (decodeEntryField key entry) EntryPartsOk := by
    unfold decodeEntryField
    split
    all_goals first
      | exact .after fun _ => .pure { ok with }
      | skip
    · exact (ensures_texts maxTagsPerEntry entry.tags).bind fun tags few => .pure { ok with tags := few }
    · exact (ensures_list ensures_customField maxCustomFieldsPerEntry).bind fun fields holds =>
        .pure { ok with fewCustomFields := holds.1, customFields := holds.2 }
    · exact (ensures_list ensures_attachmentRef maxAttachmentRefsPerEntry).bind fun refs holds =>
        .pure { ok with fewAttachmentRefs := holds.1, attachmentRefs := holds.2 }
    · exact (ensures_list ensures_historyRevision maxHistoryPerEntry).bind fun history holds =>
        .pure { ok with fewRevisions := holds.1, history := holds.2 }
    · exact (ensures_texts maxUrlsPerEntry entry.urls).bind fun urls few => .pure { ok with urls := few }
    · exact (ensures_unknown ok.unknown (by grind)).bind fun fields holds => .pure { ok with unknown := holds }
  have initial : EntryPartsOk entryZero := by
    refine ⟨.nil 20, ?_, ?_, ?_, ?_, ?_, ?_, ?_, ?_⟩ <;> simp [entryZero]
  refine (ensures_fields initial kept).bind fun entry ok => .pure ⟨⟨ok.unknown, ok.tags, ?_, ok.fewCustomFields,
    ok.customFields, ok.fewAttachmentRefs, ok.attachmentRefs, ok.fewRevisions, ok.history⟩, ?_⟩
  · exact ensureUrlAlias_length entry.url ok.urls
  · exact ensureUrlAlias_primary entry.url entry.urls

end Hiya.Pm
