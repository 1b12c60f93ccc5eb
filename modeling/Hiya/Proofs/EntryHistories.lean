import Hiya.Proofs.EntryIds

/-! The history of an entry that is changed. A change starts from the history in the
replacement, not from the stored one, and puts the entry as it was on top. -/

namespace Hiya.Pm
open Library Cbor

/-- The call puts a replacement in the place of the entries with an id. -/
def EntryCall.Replaces (call : EntryCall) (entryId : CStr) (replacement : Entry) (before : Payload) : Prop :=
  match call with
  | update id entry => id = entryId ∧ entry = replacement
  | add entry _ => entry.id = entryId ∧ entry = replacement ∧ entryId ∈ idsOf before
  | remove _ => False

/-- What a change makes of the history of an entry. -/
structure HistoryGrows (entryId : CStr) (replacement old new : Entry) : Prop where
  pushed : old.id = entryId →
    new.history = newest historyMaxRevisions (replacement.history ++ [snapshot old (revisionTime replacement old)])
  /-- A replacement that was read from the vault brings the stored history along. -/
  carried : old.id = entryId → replacement.history = old.history →
    new.history = newest historyMaxRevisions (old.history ++ [snapshot old (revisionTime replacement old)])
  other : old.id ≠ entryId → new = old

theorem historyGrows_updated (entryId : CStr) (replacement : Entry) (entries : List Entry) :
    List.Forall₂ (HistoryGrows entryId replacement) entries (entries.map (updatedEntry entryId replacement)) := by
  induction entries with
  | nil => exact .nil
  | cons old rest ih =>
    refine .cons ?_ ih
    have pushed (same : old.id = entryId) : (updatedEntry entryId replacement old).history =
        newest historyMaxRevisions (replacement.history ++ [snapshot old (revisionTime replacement old)]) := by
      unfold updatedEntry
      rw [if_pos same]
      rfl
    refine ⟨pushed, fun same carried => ?_, fun other => if_neg other⟩
    rw [pushed same, carried]

/-- A call that succeeds has read the payload. -/
theorem call_reads {call : EntryCall} {before after : VaultHandle} (done : call.apply before = (.ok (), after)) :
    ∃ payload, vaultGetPayloadModel before = (.ok payload, before) := by
  have reads {next : Payload → Vault Unit} (ran : (vaultGetPayloadModel >>= next) before = (.ok (), after)) :
      ∃ payload, vaultGetPayloadModel before = (.ok payload, before) := by
    obtain ⟨payload, reached, read, -⟩ := Proc.bind_eq_ok.mp ran
    obtain ⟨rfl, -, -⟩ := getPayloadModel_ok read
    exact ⟨payload, read⟩
  cases call with
  | add entry failIfExists =>
    unfold EntryCall.apply vaultEntryAdd at done
    dsimp only at done
    split at done
    · cases done
    · exact reads done
  | update entryId replacement =>
    unfold EntryCall.apply vaultEntryUpdate at done
    dsimp only at done
    split at done
    · cases done
    · exact reads done
  | remove entryId =>
    unfold EntryCall.apply vaultEntryRemove at done
    dsimp only at done
    split at done
    · cases done
    · exact reads done

/-- An add of an id that is there is an update. -/
theorem add_known {entry : Entry} {failIfExists : Bool} {before after : VaultHandle} {payload : Payload}
    (read : vaultGetPayloadModel before = (.ok payload, before)) (known : entry.id ∈ idsOf payload)
    (done : vaultEntryAdd entry failIfExists before = (.ok (), after)) : vaultEntryUpdate entry.id entry before =
    (.ok (), after) := by
  have found : payload.entries.any (·.id = entry.id) = true := by
    obtain ⟨stored, inside, same⟩ := List.mem_map.mp known
    exact List.any_eq_true.mpr ⟨stored, inside, decide_eq_true same⟩
  unfold vaultEntryAdd at done
  split at done
  · cases done
  rw [Proc.bind_of_ok read, found] at done
  cases failIfExists with
  | true => cases done
  | false => exact done

theorem replaces_installs {call : EntryCall} {entryId : CStr} {replacement : Entry} {before after : VaultHandle}
    {payload : Payload}
    (read : vaultGetPayloadModel before = (.ok payload, before)) (raw : call.RawOk)
    (done : call.apply before = (.ok (), after))
    (replaces : call.Replaces entryId replacement payload) : vaultGetPayloadModel after =
      (.ok { updatedInit payload with entries := payload.entries.map (updatedEntry entryId replacement) }, after) := by
  cases call with
  | add entry failIfExists =>
    obtain ⟨rfl, rfl, known⟩ := replaces
    exact update_installs read raw (add_known read known done)
  | update id entry =>
    obtain ⟨rfl, rfl⟩ := replaces
    exact update_installs read raw done
  | remove id => exact replaces.elim

theorem histories_grow (start : VaultHandle) (calls : List EntryCall) :
    ∀ event ∈ entryCalls.run start calls, event.outcome = .ok () → event.input.RawOk →
      ∃ before, vaultGetPayloadModel event.before = (.ok before, event.before) ∧
        ∀ entryId replacement, event.input.Replaces entryId replacement before →
          ∃ after, vaultGetPayloadModel event.after = (.ok after, event.after) ∧
            List.Forall₂ (HistoryGrows entryId replacement) before.entries after.entries := by
  intro event inside succeeded raw
  have made := Machine.event_of_mem entryCalls inside
  have done : event.input.apply event.before = (.ok (), event.after) := by
    apply Prod.ext
    · exact (congrArg Event.outcome made).symm.trans succeeded
    · exact (congrArg Event.after made).symm
  obtain ⟨before, read⟩ := call_reads done
  refine ⟨before, read, fun entryId replacement replaces => ?_⟩
  exact ⟨_, replaces_installs read raw done replaces, historyGrows_updated entryId replacement before.entries⟩

theorem rawOk_entryA : EntryRawOk entryA := ⟨.nil 20, by simp [entryA], by simp [entryA], by simp [entryA]⟩

theorem histories_grow_pairVault :
    ∃ before, vaultGetPayloadModel pairVault = (.ok before, pairVault) ∧ ∀ entryId replacement,
      (EntryCall.update idA entryA).Replaces entryId replacement before →
        ∃ after, vaultGetPayloadModel (entryCalls.event pairVault (.update idA entryA)).after =
            (.ok after, (entryCalls.event pairVault (.update idA entryA)).after) ∧
          List.Forall₂ (HistoryGrows entryId replacement) before.entries after.entries := by
  have success : (entryCalls.event pairVault (.update idA entryA)).outcome = .ok () := by decide +kernel
  exact histories_grow pairVault [.update idA entryA] (entryCalls.event pairVault (.update idA entryA))
    (by rw [Machine.run_singleton]; exact List.mem_singleton_self _) success rawOk_entryA

def changedVault : VaultHandle := (vaultEntryUpdate idA entryA singleVault).2

def secondChange : Event VaultHandle EntryCall (Except PmError Unit) := entryCalls.event changedVault (.update idA entryA)

theorem secondChange_mem : secondChange ∈ entryCalls.run changedVault [.update idA entryA] := by
  rw [Machine.run_singleton]
  exact List.mem_singleton_self _

/-- What is left is the second snapshot. -/
theorem history_comes_from_replacement :
    ¬ ∀ (start : VaultHandle) (calls : List EntryCall), ∀ event ∈ entryCalls.run start calls, event.outcome = .ok () →
    event.input.RawOk →
      ∀ before, vaultGetPayloadModel event.before = (.ok before, event.before) →
        ∀ entryId replacement, event.input.Replaces entryId replacement before →
          ∀ after, vaultGetPayloadModel event.after = (.ok after, event.after) →
            List.Forall₂ (fun old new : Entry => old.id = entryId →
              new.history = newest historyMaxRevisions (old.history ++ [snapshot old (revisionTime replacement old)]))
              before.entries after.entries := by
  intro claimed
  have first : secondChange.outcome = .ok () ∧
      vaultGetPayloadModel secondChange.before = (.ok (modelOf secondChange.before), secondChange.before) ∧
      (modelOf secondChange.before).entries.map (fun entry => (entry.id, entry.history.length)) = [(idA, 1)] :=
        by decide +kernel
  have second : vaultGetPayloadModel secondChange.after = (.ok (modelOf secondChange.after), secondChange.after) ∧
      (modelOf secondChange.after).entries.map (fun entry => entry.history.length) = [1] := by decide +kernel
  have grows := claimed changedVault [.update idA entryA]
    secondChange secondChange_mem first.1 rawOk_entryA _ first.2.1 idA entryA
    ⟨rfl, rfl⟩ _ second.1
  obtain ⟨old, alone, known⟩ := List.map_eq_singleton_iff.mp first.2.2
  obtain ⟨new, single, short⟩ := List.map_eq_singleton_iff.mp second.2
  rw [alone, single] at grows
  cases grows with
  | cons grown _ =>
    have long := congrArg List.length (grown (congrArg Prod.fst known))
    have held : old.history.length = 1 := congrArg Prod.snd known
    unfold newest historyMaxRevisions maxHistoryPerEntry at long
    simp only [List.length_drop, List.length_append, List.length_singleton, held] at long
    omega

end Hiya.Pm
