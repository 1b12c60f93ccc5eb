import Hiya.Library.Coupling
import Hiya.Proofs.Specimens
import Mathlib.Algebra.GroupWithZero.Nat

/-! When a request overruns its exclude or allow list. The program asks for room
once for each descriptor, so what matters is how many ids each descriptor holds:
these are read off the request by the same scan with a list that has no end. -/

namespace Hiya.Fido2
open Library Cbor

def bump : List Nat → List Nat
  | [] => [1]
  | count :: before => (count + 1) :: before

def idCounts : DescriptorList (List Nat) where
  enter counts := some (0 :: counts)
  store counts _ := some (bump counts)

/-- No descriptor takes the number of ids from below sixteen to above it. -/
def Fits : List Nat → Prop
  | [] => True
  | count :: before => Fits before ∧ (before.sum < maxAllowList → before.sum + count ≤ maxAllowList)

instance Fits.decidable : (counts : List Nat) → Decidable (Fits counts)
  | [] => inferInstanceAs (Decidable True)
  | count :: before =>
    have := Fits.decidable before
    inferInstanceAs (Decidable (Fits before ∧ (before.sum < maxAllowList → before.sum + count ≤ maxAllowList)))

private theorem fits_of_sum {counts : List Nat} (small : counts.sum ≤ maxAllowList) : Fits counts := by
  induction counts with
  | nil => trivial
  | cons count before ih =>
    rw [List.sum_cons] at small
    exact ⟨ih (by omega), fun _ => by omega⟩

/-- The descriptor being read began while the list had room. -/
def Opened (counts : List Nat) : Prop := ∀ count before, counts = count :: before → before.sum < maxAllowList

def listRegime (closing : Prop) : Regime (Scan IdList) (Scan (List Nat)) Status where
  live scan record := scan.dec = record.dec ∧ record.list.sum = scan.list.ids.length ∧ Opened record.list
  idle scan := closing ∧ scan.list.ids.length = maxAllowList
  safe record := Fits record.list ∧ maxAllowList ≤ record.list.tail.sum
  lost record := ¬ Fits record.list
  bad := .fault

variable {closing : Prop}

private theorem live_fits {scan : Scan IdList} {record : Scan (List Nat)} (live : (listRegime closing).live scan record) :
    Fits record.list := by
  obtain ⟨-, count, -⟩ := live
  apply fits_of_sum
  rw [count]
  exact scan.list.bounded

/-- A parser of the plain decoder never faults and never touches the list. -/
def Plain {β : Type} (body : Parse β) : Prop := ∀ dec, (body dec).1 ≠ .error .fault

section
variable {α β : Type}

private theorem coupled_onDec {body : Parse β} (plain : Plain body) : (listRegime closing).Coupled (onDec body)
    (onDec body) where
  step {scan record} live := by
    obtain ⟨same, count, opened⟩ := live
    left
    refine ⟨?_, plain _, ?_, count, opened⟩
    · change (body scan.dec).1 = (body record.dec).1
      rw [same]
    · change (body scan.dec).2 = (body record.dec).2
      rw [same]
  idle held := ⟨held, plain _⟩
  safe held := held
  lost held := held

end

private theorem sum_bump (counts : List Nat) : (bump counts).sum = counts.sum + 1 := by
  cases counts with
  | nil => rfl
  | cons count before =>
    simp only [bump, List.sum_cons]
    omega

private theorem opened_bump {counts : List Nat} (opened : Opened counts) : Opened (bump counts) := by
  intro count before shape
  cases counts with
  | nil =>
    cases shape
    decide
  | cons first rest =>
    obtain ⟨-, rfl⟩ := List.cons.inj shape
    exact opened first rest rfl

private theorem lost_bump {counts : List Nat} (lost : ¬ Fits counts) : ¬ Fits (bump counts) := by
  cases counts with
  | nil => exact absurd trivial lost
  | cons count before =>
    rintro ⟨fits, room⟩
    exact lost ⟨fits, fun below => by have := room below; omega⟩

/-- One id too many in a descriptor that began while there was room. -/
theorem lost_of_full {counts : List Nat} (opened : Opened counts) (full : maxAllowList ≤ counts.sum) :
    ¬ Fits (bump counts) := by
  cases counts with
  | nil => exact absurd full (by decide)
  | cons count before =>
    rintro ⟨-, room⟩
    have bound := room (opened count before rfl)
    rw [List.sum_cons] at full
    omega

private theorem storeId_idCounts (id : CredentialId) (record : Scan (List Nat)) :
    storeId idCounts id record = (.ok (), record.putList (bump record.list)) := rfl

theorem storeId_room {scan : Scan IdList} (id : CredentialId) (room : scan.list.ids.length < maxAllowList) :
    ∃ list : IdList, storeId idSlots id scan = (.ok (), scan.putList list) ∧
      list.ids.length = scan.list.ids.length + 1 := by
  refine ⟨⟨scan.list.ids ++ [id], by rw [List.length_append]; exact room⟩, ?_, List.length_append⟩
  simp only [storeId, Proc.bind_apply, Proc.get_apply, idSlots, dif_pos room]
  rfl

theorem storeId_full {scan : Scan IdList} (id : CredentialId) (full : ¬ scan.list.ids.length < maxAllowList) :
    storeId idSlots id scan = (.error .fault, scan) := by
  simp only [storeId, Proc.bind_apply, Proc.get_apply, idSlots, dif_neg full]
  rfl

private theorem coupled_storeId (id : CredentialId) :
    (listRegime False).Coupled (storeId idSlots id) (storeId idCounts id) where
  step {scan record} live := by
    obtain ⟨same, count, opened⟩ := live
    rw [storeId_idCounts]
    by_cases room : scan.list.ids.length < maxAllowList
    · obtain ⟨list, stored, grown⟩ := storeId_room id room
      rw [stored]
      refine .inl ⟨rfl, nofun, same, ?_, opened_bump opened⟩
      change (bump record.list).sum = list.ids.length
      rw [sum_bump, count, grown]
    · rw [storeId_full id room]
      refine .inr (.inr ⟨rfl, lost_of_full opened ?_⟩)
      rw [count]
      exact Nat.not_lt.mp room
  idle held := held.1.elim
  safe {record} held := by
    obtain ⟨fits, past⟩ := held
    rw [storeId_idCounts]
    change Fits (bump record.list) ∧ maxAllowList ≤ (bump record.list).tail.sum
    cases shape : record.list with
    | nil =>
      rw [shape] at past
      exact absurd past (by decide)
    | cons count before =>
      rw [shape] at fits past
      exact ⟨⟨fits.1, fun below => absurd below (Nat.not_lt.mpr past)⟩, past⟩
  lost held := lost_bump held

private theorem plain_orFail {β : Type} (body : Decode β) (problem : Status) (other : problem ≠ .fault) :
    Plain (body.orFail problem) := by
  intro dec
  unfold Proc.orFail
  rcases body dec with ⟨_ | value, after⟩
  · simpa using other
  · nofun

private theorem plain_pure {β : Type} (value : β) : Plain (pure value) := fun _ => nofun

private theorem plain_bind {β γ : Type} {body : Parse β} {next : β → Parse γ} (head : Plain body)
    (tail : ∀ value, Plain (next value)) : Plain (body >>= next) := by
  intro dec
  have fine := head dec
  rw [Proc.bind_apply]
  rcases outcome : body dec with ⟨problem | value, after⟩ <;> rw [outcome] at fine
  · exact fun wrong => fine (by cases wrong; rfl)
  · exact tail value after

private theorem plain_ignore {β : Type} (body : Decode β) : Plain body.ignore := fun _ => nofun

private theorem plain_repeatWith {β : Type} {body : β → Parse β} (each : ∀ acc, Plain (body acc)) (count : Nat) :
    ∀ acc, Plain (Proc.repeatWith count body acc) := by
  induction count with
  | zero => exact plain_pure
  | succ count ih => exact fun acc => plain_bind (each acc) ih

private theorem plain_nextItem : Plain nextItem := plain_orFail _ _ (by decide)

private theorem plain_skipValue {β : Type} (acc : β) : Plain (skipValue acc) :=
  plain_bind (plain_ignore _) fun _ => plain_pure acc

private theorem coupled_descriptorPair :
    (listRegime False).Coupled (descriptorPair idSlots) (descriptorPair idCounts) := by
  apply Regime.Coupled.bind (coupled_onDec plain_nextItem)
  intro item
  cases item with
  | tstr key =>
    simp only [descriptorField]
    split
    · apply Regime.Coupled.bind (coupled_onDec plain_nextItem)
      intro value
      cases value with
      | bstr data => exact coupled_storeId _
      | _ => exact .pure ()
    · exact coupled_onDec (plain_skipValue ())
  | _ => exact coupled_onDec (plain_skipValue ())

def descriptorBody {α : Type} (sink : DescriptorList α) (count : Nat) : Collect α Unit := do
  let scan ← Proc.get
  match sink.enter scan.list with
  | none => onDec (skipPairs count)
  | some list => do
    Proc.modify (Scan.putList list)
    Proc.repeatWith count (fun _ => descriptorPair sink) ()

private theorem descriptorBody_full {scan : Scan IdList} (count : Nat) (full : maxAllowList ≤ scan.list.ids.length) :
    descriptorBody idSlots count scan = onDec (skipPairs count) scan := by
  simp only [descriptorBody, Proc.bind_apply, Proc.get_apply, idSlots, ge_iff_le, if_pos full]

private theorem descriptorBody_room {scan : Scan IdList} (count : Nat) (room : ¬ maxAllowList ≤ scan.list.ids.length) :
    descriptorBody idSlots count scan = Proc.repeatWith count (fun _ => descriptorPair idSlots) () scan := by
  simp only [descriptorBody, Proc.bind_apply, Proc.get_apply, idSlots, ge_iff_le, if_neg room, Proc.modify_apply]
  rfl

private theorem descriptorBody_counts (record : Scan (List Nat)) (count : Nat) :
    descriptorBody idCounts count record =
      Proc.repeatWith count (fun _ => descriptorPair idCounts) () (record.putList (0 :: record.list)) := rfl

private theorem plain_skipPairs (count : Nat) : Plain (skipPairs count) :=
  plain_repeatWith (fun _ => plain_bind (plain_ignore _) fun _ => plain_ignore _) count ()

private theorem fits_zero {counts : List Nat} (fits : Fits counts) (small : maxAllowList ≤ counts.sum) : Fits (0 :: counts) :=
  ⟨fits, fun below => absurd below (Nat.not_lt.mpr small)⟩

private theorem coupled_descriptorBody (count : Nat) :
    (listRegime True).Coupled (descriptorBody idSlots count) (descriptorBody idCounts count) := by
  have pairs := Regime.Coupled.repeatWith (fun _ => coupled_descriptorPair) count ()
  constructor
  case step =>
    intro scan record live
    rw [descriptorBody_counts]
    have fits := live_fits live
    obtain ⟨same, sum, opened⟩ := live
    by_cases full : maxAllowList ≤ scan.list.ids.length
    · -- the list is full at a boundary: the rest of the request is skipped
      rw [descriptorBody_full count full]
      have exact16 := Nat.le_antisymm scan.list.bounded full
      have past : maxAllowList ≤ record.list.sum := sum ▸ full
      exact .inr (.inl ⟨⟨trivial, exact16⟩, plain_skipPairs count _, pairs.safe ⟨fits_zero fits past, past⟩⟩)
    · rw [descriptorBody_room count full]
      have inside : (listRegime False).live scan (record.putList (0 :: record.list)) := by
        refine ⟨same, ?_, ?_⟩
        · change (0 :: record.list).sum = _
          rw [List.sum_cons, Nat.zero_add, sum]
        · intro first before shape
          obtain ⟨-, rfl⟩ := List.cons.inj shape
          rw [sum]
          exact Nat.not_le.mp full
      rcases pairs.step inside with agree | ⟨⟨inner, -⟩, -⟩ | wrong
      · exact .inl agree
      · exact inner.elim
      · exact .inr (.inr wrong)
  case idle =>
    rintro scan ⟨-, full⟩
    rw [descriptorBody_full count (Nat.le_of_eq full.symm)]
    exact ⟨⟨trivial, full⟩, plain_skipPairs count _⟩
  case safe =>
    rintro record ⟨fits, past⟩
    rw [descriptorBody_counts]
    have total : maxAllowList ≤ record.list.sum := by
      cases shape : record.list with
      | nil =>
        rw [shape] at past
        exact past
      | cons first before =>
        rw [shape, List.tail_cons] at past
        rw [List.sum_cons]
        omega
    exact pairs.safe ⟨fits_zero fits total, total⟩
  case lost =>
    intro record lost
    rw [descriptorBody_counts]
    exact pairs.lost fun fits => lost fits.1

private theorem coupled_readRequest {β : Type} (listKey : UInt64) {field : UInt64 → β → Parse β}
    (plain : ∀ key params, Plain (field key params)) (start : β) :
    (listRegime True).Coupled (readRequest idSlots listKey field start) (readRequest idCounts listKey field start) := by
  have list : (listRegime True).Coupled (parseDescriptors idSlots) (parseDescriptors idCounts) := by
    apply Regime.Coupled.bind (coupled_onDec (plain_orFail _ _ (by decide)))
    intro count
    refine Regime.Coupled.repeatWith (fun _ => ?_) count ()
    exact Regime.Coupled.bind (coupled_onDec (plain_orFail _ _ (by decide))) coupled_descriptorBody
  apply Regime.Coupled.bind (coupled_onDec (plain_orFail _ _ (by decide)))
  intro count
  refine Regime.Coupled.repeatWith (fun params => ?_) count start
  apply Regime.Coupled.bind (coupled_onDec (plain_orFail _ _ (by decide)))
  intro key
  split
  · exact .bind list fun _ => .pure params
  · exact coupled_onDec (plain key params)

section
variable {β : Type}

private theorem plain_fail {problem : Status} (other : problem ≠ .fault) : Plain (Proc.fail problem : Parse β) :=
  fun _ wrong => other (by cases wrong; rfl)

private theorem plain_withDefault (body : Decode β) (fallback : β) : Plain (body.withDefault fallback) := by
  intro dec
  unfold Proc.withDefault
  rcases body dec with ⟨_ | value, after⟩
  · nofun
  · nofun

private theorem plain_ite {condition : Prop} [Decidable condition] {first second : Parse β} (yes : Plain first)
    (no : Plain second) : Plain (if condition then first else second) := by
  split
  · exact yes
  · exact no

private theorem plain_parseTextMap {field : Bytes → β → Parse β} (plain : ∀ key acc, Plain (field key acc)) (acc : β) :
    Plain (parseTextMap field acc) := by
  apply plain_bind (plain_orFail _ _ (by decide))
  intro count
  refine plain_repeatWith (fun acc => plain_bind plain_nextItem fun item => ?_) count acc
  cases item with
  | tstr key => exact plain key acc
  | _ => exact plain_skipValue acc

end

private theorem plain_uintValue : Plain uintValue := plain_orFail _ _ (by decide)

private theorem plain_tstrValue : Plain tstrValue := by
  apply plain_bind plain_nextItem
  intro item
  cases item with
  | tstr data => exact plain_pure data
  | _ => exact plain_fail (by decide)

private theorem plain_bstrValue : Plain bstrValue := by
  apply plain_bind plain_nextItem
  intro item
  cases item with
  | bstr data => exact plain_pure data
  | _ => exact plain_fail (by decide)

private theorem plain_clientDataHashValue : Plain clientDataHashValue := by
  apply plain_bind plain_nextItem
  intro item
  cases item with
  | bstr data =>
    dsimp only
    split
    · exact plain_pure _
    · exact plain_fail (by decide)
  | _ => exact plain_fail (by decide)

private theorem plain_pinUvAuthParamValue : Plain pinUvAuthParamValue := by
  apply plain_bind plain_nextItem
  intro item
  cases item with
  | bstr data => exact plain_ite (plain_fail (by decide)) (plain_pure _)
  | _ => exact plain_fail (by decide)

private theorem plain_rpEntity (crypto : Crypto) (rp : Rp) : Plain (parseRpEntity crypto rp) := by
  refine plain_bind (plain_parseTextMap (fun key rp => ?_) rp) fun _ => plain_pure _
  apply plain_ite (plain_bind plain_tstrValue fun _ => plain_pure _)
  exact plain_ite (plain_bind plain_tstrValue fun _ => plain_pure _) (plain_skipValue rp)

private theorem plain_userEntity (user : User) : Plain (parseUserEntity user) := by
  refine plain_parseTextMap (fun key user => ?_) user
  apply plain_ite (plain_bind plain_bstrValue fun _ => plain_pure _)
  apply plain_ite (plain_bind plain_tstrValue fun _ => plain_pure _)
  exact plain_ite (plain_bind plain_tstrValue fun _ => plain_pure _) (plain_skipValue user)

private theorem plain_pubKeyCredParams (supported : Bool) : Plain (parsePubKeyCredParams supported) := by
  apply plain_bind (plain_orFail _ _ (by decide))
  intro count
  refine plain_repeatWith (fun supported => ?_) count supported
  refine plain_bind (plain_parseTextMap (fun key param => ?_) _) fun _ => plain_pure _
  refine plain_ite (plain_bind plain_nextItem fun item => ?_)
    (plain_ite (plain_bind plain_nextItem fun item => ?_) (plain_skipValue param))
  · cases item <;> exact plain_pure _
  · cases item <;> exact plain_pure _

private theorem plain_makeCredField (crypto : Crypto) (key : UInt64) (params : MakeCredParams) :
    Plain (makeCredField crypto key params) := by
  unfold makeCredField
  split
  · exact plain_bind plain_clientDataHashValue fun _ => plain_pure _
  · exact plain_bind (plain_rpEntity crypto _) fun _ => plain_pure _
  · exact plain_bind (plain_userEntity _) fun _ => plain_pure _
  · exact plain_bind (plain_pubKeyCredParams _) fun _ => plain_pure _
  · refine plain_parseTextMap (fun key params => ?_) params
    refine plain_ite (plain_bind plain_uintValue fun level => ?_) (plain_ite ?_ (plain_skipValue params))
    · exact plain_ite (plain_fail (by decide)) (plain_pure _)
    · exact plain_bind (plain_orFail _ _ (by decide)) fun _ => plain_pure _
  · refine plain_parseTextMap (fun key params => ?_) params
    apply plain_bind (plain_withDefault _ _)
    exact fun value => plain_ite (plain_pure _) (plain_ite (plain_pure _) (plain_pure _))
  · exact plain_bind plain_pinUvAuthParamValue fun _ => plain_pure _
  · exact plain_bind plain_uintValue fun _ => plain_pure _
  · exact plain_skipValue params

private theorem plain_getAssertionField (crypto : Crypto) (key : UInt64) (params : GetAssertionParams) :
    Plain (getAssertionField crypto key params) := by
  unfold getAssertionField
  split
  · exact plain_bind plain_tstrValue fun _ => plain_pure _
  · exact plain_bind plain_clientDataHashValue fun _ => plain_pure _
  · refine plain_parseTextMap (fun key params => ?_) params
    apply plain_bind (plain_withDefault _ _)
    exact fun value => plain_ite (plain_pure _) (plain_ite (plain_pure _) (plain_pure _))
  · exact plain_bind plain_pinUvAuthParamValue fun _ => plain_pure _
  · exact plain_bind plain_uintValue fun _ => plain_pure _
  · exact plain_skipValue params

/-- How many ids each descriptor of a request holds, the last descriptor first, up
to the end of the request or the first error in it. -/
def descriptorCounts {β : Type} (listKey : UInt64) (field : UInt64 → β → Parse β) (start : β) (request : Bytes) :
    List Nat :=
  (readRequest idCounts listKey field start ⟨Decoder.init request, []⟩).2.list

def excludeCounts (crypto : Crypto) (request : Bytes) : List Nat :=
  descriptorCounts excludeListKey (makeCredField crypto) .zero request

def allowCounts (crypto : Crypto) (request : Bytes) : List Nat :=
  descriptorCounts allowListKey (getAssertionField crypto) .zero request

private theorem readRequest_fault_iff {β : Type} (listKey : UInt64) {field : UInt64 → β → Parse β}
    (plain : ∀ key params, Plain (field key params)) (start : β) (request : Bytes) :
    (readRequest idSlots listKey field start ⟨Decoder.init request, .empty⟩).1 = .error .fault ↔
      ¬ Fits (descriptorCounts listKey field start request) := by
  refine (coupled_readRequest listKey plain start).verdict (fun live lost => lost (live_fits live))
    (fun safe lost => lost safe.1) ?_
  exact ⟨rfl, rfl, nofun⟩

private theorem parseMakeCredParams_fault_iff (crypto : Crypto) (request : Bytes) :
    parseMakeCredParams crypto request = .error .fault ↔ ¬ Fits (excludeCounts crypto request) := by
  have whole := readRequest_fault_iff excludeListKey (plain_makeCredField crypto) .zero request
  rw [excludeCounts, ← whole, parseMakeCredParams]
  split
  next problem scan outcome => simp [outcome]
  next params scan outcome =>
    simp only [outcome, reduceCtorEq, iff_false]
    unfold makeCredMandatory
    split_ifs <;> nofun

private theorem parseGetAssertionParams_fault_iff (crypto : Crypto) (request : Bytes) :
    parseGetAssertionParams crypto request = .error .fault ↔ ¬ Fits (allowCounts crypto request) := by
  have whole := readRequest_fault_iff allowListKey (plain_getAssertionField crypto) .zero request
  rw [allowCounts, ← whole, parseGetAssertionParams]
  split
  next problem scan outcome => simp [outcome]
  next params scan outcome =>
    simp only [outcome, reduceCtorEq, iff_false]
    unfold getAssertionMandatory
    split_ifs <;> nofun

/-- Both parsers stay inside their sixteen slots exactly on the requests in which
no descriptor jumps past the end of the list. -/
theorem descriptor_stores_in_bounds_iff (crypto : Crypto) (request : Bytes) :
    (parseMakeCredParams crypto request ≠ .error .fault ↔ Fits (excludeCounts crypto request)) ∧
      (parseGetAssertionParams crypto request ≠ .error .fault ↔ Fits (allowCounts crypto request)) :=
  ⟨by rw [ne_eq, parseMakeCredParams_fault_iff, not_not], by rw [ne_eq, parseGetAssertionParams_fault_iff, not_not]⟩

/-- A request whose only entry is a list, under `listKey`, of one descriptor that
repeats the key `id`, each time with an empty byte string. -/
def repeatedIdRequest (listKey : UInt8) (ids : UInt8) : Bytes :=
  [0xA1, listKey, 0x81, 0xA0 ||| ids] ++ (List.replicate ids.toNat [0x62, 0x69, 0x64, 0x40]).flatten

theorem repeated_id_overruns_list :
    ¬ ∀ crypto request, parseMakeCredParams crypto request ≠ .error .fault ∧
      parseGetAssertionParams crypto request ≠ .error .fault := by
  intro bounded
  exact (bounded tagCipher (repeatedIdRequest 5 17)).1 (by decide +kernel)

end Hiya.Fido2
