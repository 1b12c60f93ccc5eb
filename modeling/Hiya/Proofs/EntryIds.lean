import Mathlib.Data.List.Nodup
import Hiya.Proofs.EntryStoreFrame

/-! The ids of the entries of a vault. Adding looks for the id first and removing only
takes ids away; updating puts the replacement's own id in, whatever that is. -/

namespace Hiya.Pm
open Library Cbor

def idsOf (payload : Payload) : List CStr := payload.entries.map (·.id)

/-- Calls that change the entries of an open vault. -/
inductive EntryCall
  | add (entry : Entry) (failIfExists : Bool)
  | update (entryId : CStr) (replacement : Entry)
  | remove (entryId : CStr)

def EntryCall.apply : EntryCall → Vault Unit
  | add entry failIfExists => vaultEntryAdd entry failIfExists
  | update entryId replacement => vaultEntryUpdate entryId replacement
  | remove entryId => vaultEntryRemove entryId

def entryCalls : Machine VaultHandle EntryCall (Except PmError Unit) where
  step call := call.apply
  halts _ := false

/-- The vault can be read, and no two of its entries have the same id. -/
def Distinct (handle : VaultHandle) : Prop :=
  ∃ payload, vaultGetPayloadModel handle = (.ok payload, handle) ∧ (idsOf payload).Nodup

/-- The entry a caller passes has raw parts as the decoder captures them. -/
def EntryCall.RawOk : EntryCall → Prop
  | add entry _ => EntryRawOk entry
  | update _ replacement => EntryRawOk replacement
  | remove _ => True

/-- An update keeps the id of its entry, or takes one that no entry of the vault has. -/
def EntryCall.KeepsApart (call : EntryCall) (before : VaultHandle) : Prop :=
  match call with
  | update entryId replacement => replacement.id = entryId ∨
    ∀ payload, vaultGetPayloadModel before = (.ok payload, before) → replacement.id ∉ idsOf payload
  | _ => True

theorem renamed_self (entryId id : CStr) : renamed entryId entryId id = id := by
  unfold renamed
  split
  next same => exact same.symm
  next => rfl

/-- The ids stay distinct only if the new one was not there yet. -/
theorem nodup_renamed_iff {ids : List CStr} {entryId replacement : CStr} (distinct : ids.Nodup) (present : entryId ∈ ids) :
    (ids.map (renamed entryId replacement)).Nodup ↔ replacement = entryId ∨ replacement ∉ ids := by
  constructor
  · intro apart
    by_contra clash
    obtain ⟨other, taken⟩ := not_or.mp clash
    have same : renamed entryId replacement entryId = renamed entryId replacement replacement := by
      rw [renamed, renamed, if_pos rfl, if_neg other]
    exact other (List.inj_on_of_nodup_map apart present (not_not.mp taken) same).symm
  · rintro (rfl | free)
    · rwa [List.map_congr_left fun id _ => renamed_self _ id, List.map_id']
    · refine distinct.map_on fun first here second there same => ?_
      unfold renamed at same
      split at same
      next one =>
        split at same
        next two => rw [one, two]
        next => exact absurd (same ▸ there) free
      next =>
        split at same
        next => exact absurd (same ▸ here) free
        next => exact same

/-- An update that finds its entry has passed it on the way. -/
theorem update_found {entryId : CStr} {replacement : Entry} {sources : List Entry} {updated last : Payload} {found : Bool}
    (done : sources.foldlM (updateStep entryId replacement) (updated, found) = .ok (last, true)) :
    found = true ∨ entryId ∈ sources.map (·.id) := by
  induction sources generalizing updated found with
  | nil =>
    cases done
    exact .inl rfl
  | cons source rest ih =>
    rw [List.foldlM_cons] at done
    obtain ⟨⟨next, middle⟩, one, others⟩ := bind_eq_ok.mp done
    simp only [updateStep] at one
    split at one
    next same => exact .inr (by simp [same])
    next other =>
      obtain ⟨_, -, pair⟩ := bind_eq_ok.mp one
      cases pair
      rcases ih others with before | later
      · exact .inl before
      · exact .inr (List.mem_cons_of_mem _ later)

section
variable {handle last : VaultHandle} {before : Payload} (unlocked : vaultGetPayloadModel handle = (.ok before, handle))
include unlocked

theorem update_present {entryId : CStr} {replacement : Entry}
    (done : vaultEntryUpdate entryId replacement handle = (.ok (), last)) :
    entryId ∈ idsOf before := by
  obtain ⟨updated, looped, -⟩ := update_looped unlocked done
  exact (update_found looped).resolve_left Bool.false_ne_true

theorem update_ids {entryId : CStr} {replacement : Entry} (raw : EntryRawOk replacement)
    (done : vaultEntryUpdate entryId replacement handle = (.ok (), last)) :
    ∃ after, vaultGetPayloadModel last = (.ok after, last) ∧
    idsOf after = (idsOf before).map (renamed entryId replacement.id) := by
  exact ⟨_, update_installs unlocked raw done, ids_updated entryId replacement before.entries⟩

theorem remove_ids {entryId : CStr} (done : vaultEntryRemove entryId handle = (.ok (), last)) :
    ∃ after, vaultGetPayloadModel last = (.ok after, last) ∧ (idsOf after).Sublist (idsOf before) :=
  ⟨_, remove_installs unlocked done, List.filter_sublist.map _⟩

/-- An add of a known id is an update under the same id. -/
theorem add_ids {entry : Entry} {failIfExists : Bool} (raw : EntryRawOk entry)
    (done : vaultEntryAdd entry failIfExists handle = (.ok (), last)) :
    ∃ after, vaultGetPayloadModel last = (.ok after, last) ∧
      (idsOf after = idsOf before ∨ (entry.id ∉ idsOf before ∧ idsOf after = idsOf before ++ [entry.id])) := by
  have ok := payloadOk_of_decode (getPayloadModel_ok unlocked).2.2
  unfold vaultEntryAdd at done
  split at done
  · cases done
  rw [Proc.bind_of_ok unlocked] at done
  cases there : before.entries.any (·.id = entry.id) with
  | true =>
    rw [there] at done
    cases failIfExists with
    | true => cases done
    | false =>
      obtain ⟨after, installed, ids⟩ := update_ids unlocked raw done
      refine ⟨after, installed, .inl ?_⟩
      rw [ids, List.map_congr_left fun id _ => renamed_self _ id, List.map_id']
  | false =>
    rw [there] at done
    simp only [Bool.false_and, Bool.false_eq_true, if_false] at done
    cases appended : payloadAppendEntry before entry with
    | error problem =>
      rw [appended] at done
      cases done
    | ok result =>
      rw [appended] at done
      unfold payloadAppendEntry at appended
      split at appended
      · cases appended
      next room =>
        obtain ⟨copy, cloned, same⟩ := bind_eq_ok.mp appended
        cases same
        have good : PayloadOk { before with entries := before.entries ++ [copy] } :=
          { ok with
            fewEntries := length_snoc (Nat.lt_of_not_le room)
            entries := forall_snoc ok.entries (entryClone_raw raw cloned) }
        refine ⟨_, setPayloadModel_ok good done, .inr ⟨?_, ?_⟩⟩
        · simpa [idsOf] using there
        · rw [idsOf, List.map_append, List.map_singleton, entryClone_id cloned]
          rfl

end

theorem distinct_step_iff {call : EntryCall} {before after : VaultHandle} (distinct : Distinct before) (raw : call.RawOk)
    (done : call.apply before = (.ok (), after)) : Distinct after ↔ call.KeepsApart before := by
  obtain ⟨payload, read, apart⟩ := distinct
  cases call with
  | add entry failIfExists =>
    obtain ⟨result, installed, ids⟩ := add_ids read raw done
    refine iff_of_true ⟨result, installed, ?_⟩ trivial
    rcases ids with same | ⟨new, same⟩
    · rwa [same]
    · rw [same]
      exact List.nodup_append.mpr ⟨apart, List.nodup_singleton _, fun id member other single equal =>
        new ((List.mem_singleton.mp single) ▸ equal ▸ member)⟩
  | update entryId replacement =>
    obtain ⟨result, installed, ids⟩ := update_ids read raw done
    have shown : Distinct after ↔ (idsOf result).Nodup := by
      constructor
      · rintro ⟨other, again, nodup⟩
        rw [installed] at again
        cases again
        exact nodup
      · exact fun nodup => ⟨result, installed, nodup⟩
    rw [shown, ids, nodup_renamed_iff apart (update_present read done)]
    refine or_congr_right ⟨fun free other again => ?_, fun free => free payload read⟩
    rw [read] at again
    cases again
    exact free
  | remove entryId =>
    obtain ⟨result, installed, fewer⟩ := remove_ids read done
    exact iff_of_true ⟨result, installed, fewer.nodup apart⟩ trivial

/-- The entries of a vault keep distinct ids through every run of successful calls in
which the raw parts of the entries passed are as the decoder captures them, and every
update keeps the id or takes a free one. Among runs with such entries, through no others. -/
theorem entry_ids_stay_distinct_iff (start : VaultHandle) (calls : List EntryCall) (distinct : Distinct start)
    (done : ∀ event ∈ entryCalls.run start calls, event.outcome = .ok ()) :
    ((∀ event ∈ entryCalls.run start calls, event.input.RawOk ∧ event.input.KeepsApart event.before) →
      ∀ event ∈ entryCalls.run start calls, Distinct event.after) ∧
    ((∀ event ∈ entryCalls.run start calls, event.input.RawOk) →
      ((∀ event ∈ entryCalls.run start calls, Distinct event.after) ↔
        ∀ event ∈ entryCalls.run start calls, event.input.KeepsApart event.before)) := by
  have run_iff (raw : ∀ event ∈ entryCalls.run start calls, event.input.RawOk) :
      (∀ event ∈ entryCalls.run start calls, Distinct event.after) ↔
        ∀ event ∈ entryCalls.run start calls, event.input.KeepsApart event.before := by
    have fit : ∀ event ∈ entryCalls.run start calls, event.input.RawOk ∧ event.outcome = .ok () :=
      fun event inside => ⟨raw event inside, done event inside⟩
    refine Machine.run_forall_iff Distinct (fun state call before fine => ?_) distinct fit
    exact distinct_step_iff before fine.1 (Prod.ext fine.2 rfl)
  exact ⟨fun fine => (run_iff fun event inside => (fine event inside).1).mpr fun event inside => (fine event inside).2,
    run_iff⟩

def idB : CStr := ⟨[0x62], by decide, by decide⟩

/-- A vault with the entries `a` and `b`. -/
def pairVault : VaultHandle where
  locked := false
  payload := [0xA4, 1, 1, 2, 1, 3, 1, 4, 0x82, 0xA1, 1, 0x61, 0x61, 0xA1, 1, 0x61, 0x62]

def entryB : Entry := { entryA with id := idB }

theorem run_single (start : VaultHandle) (call : EntryCall) : entryCalls.run start [call] =
    [entryCalls.event start call] := rfl

theorem entry_ids_stay_distinct_pairVault :
    Distinct (entryCalls.event pairVault (.update idA entryA)).after := by
  have distinct : Distinct pairVault := ⟨modelOf pairVault, by decide +kernel, by decide +kernel⟩
  have raw : EntryRawOk entryA := ⟨.nil 20, by simp [entryA], by simp [entryA], by simp [entryA]⟩
  have success : (entryCalls.event pairVault (.update idA entryA)).outcome = .ok () := by decide +kernel
  have run := entry_ids_stay_distinct_iff pairVault [.update idA entryA] distinct
  rw [run_single] at run
  simp only [List.forall_mem_singleton] at run
  exact (run success).1 ⟨raw, .inl rfl⟩

/-- Entry `a` is updated with a replacement called `b`. -/
theorem entry_ids_collide :
    Distinct pairVault ∧ EntryRawOk entryB ∧ (vaultEntryUpdate idA entryB pairVault).1 = .ok () ∧
      ¬ Distinct (vaultEntryUpdate idA entryB pairVault).2 := by
  have raw : EntryRawOk entryB := ⟨.nil 20, by simp [entryB, entryA], by simp [entryB, entryA], by simp [entryB, entryA]⟩
  have read : vaultGetPayloadModel (vaultEntryUpdate idA entryB pairVault).2 =
      (.ok (modelOf (vaultEntryUpdate idA entryB pairVault).2), (vaultEntryUpdate idA entryB pairVault).2) := by
    decide +kernel
  refine ⟨⟨modelOf pairVault, by decide +kernel, by decide +kernel⟩, raw, by decide +kernel, ?_⟩
  rintro ⟨payload, again, nodup⟩
  have same : modelOf (vaultEntryUpdate idA entryB pairVault).2 = payload :=
    Except.ok.inj (congrArg Prod.fst (read.symm.trans again))
  rw [← same] at nodup
  exact absurd nodup (by decide +kernel)

end Hiya.Pm
