import Hiya.Proofs.EntryUpdates

/-! What comes back when the restoring of a revision is undone by restoring the newest one. A
revision holds a single url, so a longer list of urls comes back as its first. -/

namespace Hiya.Daemon.Vaults
open Library Pm Pm.Store
open Pm.Format (Primitives)

structure Visible where
  title : CStr
  username : CStr
  password : CStr
  notes : CStr
  groupId : CStr
  tags : List CStr
  favorite : Bool
  customFields : List CustomField
  deriving DecidableEq

def visible (entry : Entry) : Visible where
  title := entry.title
  username := entry.username
  password := entry.password
  notes := entry.notes
  groupId := entry.groupId
  tags := entry.tags
  favorite := entry.favorite
  customFields := entry.customFields

/-- The urls that a revision can stand for. -/
def firstUrl (urls : List CStr) : List CStr := (urls.take 1).filter (· ≠ .empty)

section
variable {lib : Primitives} {env : Env} {slot after : VaultSlot} {handle : Handle} {entryId : CStr}
    {entry restored : Entry} {revision : HistoryRevision}

def revised (env : Env) (entry : Entry) (revision : HistoryRevision) : Entry :=
  { entry with
    title := revision.title
    username := revision.username
    password := revision.password
    url := revision.url
    notes := revision.notes
    groupId := revision.groupId
    tags := revision.tags
    urls := if revision.url ≠ .empty then [revision.url] else []
    favorite := revision.favorite
    updatedAtMs := env.nowMs
    accessedAtMs := env.nowMs }

theorem restoreEntryFromRevision_ok (made : restoreEntryFromRevision env entry revision = .ok restored) :
    restored = revised env entry revision := by
  obtain ⟨_, _, same⟩ := bind_eq_ok.mp made
  exact (Except.ok.inj same).symm

theorem restorePlan_ok {index : UInt32} {contents : VaultHandle} {made : Plan}
    (planned : restorePlan env entryId index contents = .ok made) :
    ∃ entry revision, readEntry entryId contents = .ok entry ∧ entry.history[index.toNat]? = some revision ∧
      made.edit = .entryUpdate entryId (revised env entry revision) := by
  obtain ⟨entry, read, planned⟩ := bind_eq_ok.mp planned
  obtain ⟨revision, found, planned⟩ := bind_eq_ok.mp planned
  obtain ⟨restored, built, planned⟩ := bind_eq_ok.mp planned
  refine ⟨entry, revision, blames_ok read, Format.orFail_eq_ok.mp found, ?_⟩
  rw [← Except.ok.inj planned, restoreEntryFromRevision_ok (blames_ok built)]

/-- A restore that succeeds leaves the revised entry, with the old one on top of its history. -/
theorem restore_stores {otpImportFromQr : OtpImport} {index : UInt32} {reply : Reply} (there : slot.handle = some handle)
    (stored : readEntry entryId handle.contents = .ok entry)
    (done : (Call.restoreEntryRevision entryId index).run otpImportFromQr lib env slot = (.ok reply, after)) :
    ∃ revision saved, entry.history[index.toNat]? = some revision ∧ after.handle = some saved ∧
      readEntry entryId saved.contents = .ok (superseded (revised env entry revision) entry) := by
  obtain ⟨_, payload, model, found, ok⟩ := readEntry_ok stored
  have named : entry.id = entryId := by simpa using List.find?_some found
  obtain ⟨made, planned, ⟨changed⟩⟩ := changeVault_ok there (getPayloadModel_ok model).2.1 done
  obtain ⟨other, revision, read, inside, edit⟩ := restorePlan_ok planned
  obtain rfl := Except.ok.inj (stored.symm.trans read)
  have applied := changed.applied
  rw [edit] at applied
  have raw : EntryRawOk (revised env entry revision) := { EntryOk.raw ok with }
  obtain ⟨saved, here, kept⟩ := changed.reads (readEntry_updated stored raw named applied)
  exact ⟨revision, saved, inside, here, kept⟩

theorem newest_last {α : Type} {count : Nat} (positive : 0 < count) {items : List α} {item other : α} {place : Nat}
    (last : place + 1 = (newest count (items ++ [item])).length)
    (found : (newest count (items ++ [item]))[place]? = some other) : other = item := by
  have length : (newest count (items ++ [item])).length = (items.length + 1) - (items.length + 1 - count) := by
    unfold newest
    rw [List.length_drop, List.length_append, List.length_singleton]
  unfold newest at found
  rw [List.getElem?_drop, List.length_append, List.length_singleton] at found
  have place_eq : items.length + 1 - count + place = items.length := by omega
  rw [place_eq, List.getElem?_concat_length] at found
  exact (Option.some.inj found).symm

/-- The alias keeps a list that is empty together with its url, and one with an url. -/
theorem revised_urls {ts : UInt64} (ok : EntryOk entry) (other : Entry) :
    (superseded (revised env other (snapshot entry ts)) restored).urls = firstUrl entry.urls := by
  have primary := ok.primary
  change (ensureUrlAlias (some entry.url) (if entry.url ≠ .empty then [entry.url] else [])).2 = _
  rw [primary]
  cases entry.urls with
  | nil => rfl
  | cons first rest =>
    unfold firstUrl ensureUrlAlias
    by_cases empty : first = .empty
    · simp [empty]
    · simp [empty]

end

/-- Restoring some revision and then the newest one gives back what the user sees of the entry,
and of its urls the first. -/
theorem restore_is_undone (otpImportFromQr : OtpImport) (lib : Primitives) (env later : Env)
    (slot middle last : VaultSlot) (handle : Handle)
    (there : slot.handle = some handle) (entryId : CStr) (entry : Entry)
    (stored : readEntry entryId handle.contents = .ok entry)
    (index top : UInt32) (reply again : Reply)
    (restores : (Call.restoreEntryRevision entryId index).run otpImportFromQr lib env slot = (.ok reply, middle))
    (latest : ∀ saved restored, middle.handle = some saved → readEntry entryId saved.contents = .ok restored →
    top.toNat + 1 = restored.history.length)
    (undoes : (Call.restoreEntryRevision entryId top).run otpImportFromQr lib later middle = (.ok again, last)) :
    ∃ saved undone, last.handle = some saved ∧ readEntry entryId saved.contents = .ok undone ∧
    visible undone = visible entry ∧
      undone.urls = firstUrl entry.urls := by
  obtain ⟨revision, saved, _, here, read⟩ := restore_stores there stored restores
  have place := latest saved _ here read
  obtain ⟨_, kept, found, now, undone⟩ := restore_stores here read undoes
  obtain rfl := newest_last (by decide) place found
  obtain ⟨_, _, _, _, ok⟩ := readEntry_ok stored
  exact ⟨kept, _, now, undone, rfl, revised_urls ok _⟩

/-- A vault with the single entry `a`, which has the urls `b` and `c` and one revision with
nothing in it. -/
def twoUrls : VaultHandle where
  locked := false
  payload := [0xA4, 1, 1, 2, 1, 3, 1, 4, 0x81, 0xA3, 1, 0x61, 0x61, 0x12, 0x81, 0xA0, 0x14, 0x82, 0x61, 0x62, 0x61, 0x63]

def restoring (index : UInt32) (slot : VaultSlot) : Except Refusal Reply × VaultSlot :=
  (Call.restoreEntryRevision idA index).run noImport Format.plainly (onDisk true) slot

def restoredSlot (index : UInt32) (slot : VaultSlot) : VaultSlot := (restoring index slot).2

theorem restoring_done (index : UInt32) (slot : VaultSlot) (done : (restoring index slot).1 = .ok (.bool true)) :
    (Call.restoreEntryRevision idA index).run noImport Format.plainly (onDisk true) slot =
    (.ok (.bool true), restoredSlot index slot) :=
  Prod.ext done rfl

def restoredOnce : VaultSlot := restoredSlot 0 (slotOf twoUrls)

def restoredTwice : VaultSlot := restoredSlot 1 restoredOnce

def measured (measure : Entry → Nat) (slot : VaultSlot) : Option Nat :=
    slot.handle.map fun handle => measure (storedA handle.contents)

theorem both_restored : (restoring 0 (slotOf twoUrls)).1 = .ok (.bool true) ∧
    measured (·.history.length) restoredOnce = some 2 ∧
    (restoring 1 restoredOnce).1 = .ok (.bool true) ∧ measured (·.urls.length) restoredTwice = some 1 := by decide +kernel

theorem measured_read {measure : Entry → Nat} {slot : VaultSlot} {count : Nat} {saved : Handle} {entry : Entry}
    (counted : measured measure slot = some count) (there : slot.handle = some saved)
    (read : readEntry idA saved.contents = .ok entry) :
    measure entry = count := by
  unfold measured storedA at counted
  rw [there, Option.map_some, read] at counted
  exact Option.some.inj counted

theorem once_done : (Call.restoreEntryRevision idA 0).run noImport Format.plainly (onDisk true) (slotOf twoUrls) =
    (.ok (.bool true), restoredOnce) :=
  restoring_done 0 (slotOf twoUrls) both_restored.1

theorem twice_done : (Call.restoreEntryRevision idA 1).run noImport Format.plainly (onDisk true) restoredOnce =
    (.ok (.bool true), restoredTwice) :=
  restoring_done 1 restoredOnce both_restored.2.2.1

theorem stored_twoUrls : readEntry idA (openHandle twoUrls).contents = .ok (storedA twoUrls) := by decide +kernel

theorem restore_is_undone_twoUrls : ∃ saved undone, restoredTwice.handle = some saved ∧
    readEntry idA saved.contents = .ok undone ∧
    visible undone = visible (storedA twoUrls) ∧ undone.urls = firstUrl (storedA twoUrls).urls :=
  restore_is_undone noImport Format.plainly (onDisk true) (onDisk true)
    (slotOf twoUrls) restoredOnce restoredTwice (openHandle twoUrls) rfl
    idA (storedA twoUrls) stored_twoUrls 0 1 (.bool true) (.bool true) once_done
    (fun _ _ there read => (measured_read both_restored.2.1 there read).symm) twice_done

/-- The second of two urls is gone for good. -/
theorem second_url_is_lost : ¬ ∀ (otpImportFromQr : OtpImport) (lib : Primitives) (env later : Env)
    (slot middle last : VaultSlot) (handle : Handle)
    (entryId : CStr) (entry : Entry) (index top : UInt32) (reply again : Reply),
    slot.handle = some handle → readEntry entryId handle.contents = .ok entry →
    (Call.restoreEntryRevision entryId index).run otpImportFromQr lib env slot = (.ok reply, middle) →
    (∀ saved restored, middle.handle = some saved → readEntry entryId saved.contents = .ok restored →
    top.toNat + 1 = restored.history.length) →
    (Call.restoreEntryRevision entryId top).run otpImportFromQr lib later middle = (.ok again, last) →
    ∃ saved undone, last.handle = some saved ∧ readEntry entryId saved.contents = .ok undone ∧
    visible undone = visible entry ∧
      undone.urls = entry.urls := by
  intro always
  obtain ⟨-, two, -, single⟩ := both_restored
  obtain ⟨saved, undone, there, read, -, same⟩ := always noImport Format.plainly (onDisk true) (onDisk true)
    (slotOf twoUrls) restoredOnce restoredTwice
    (openHandle twoUrls) idA (storedA twoUrls) 0 1 (.bool true) (.bool true) rfl stored_twoUrls once_done
    (fun _ _ there read => (measured_read two there read).symm) twice_done
  have both : (storedA twoUrls).urls.length = 2 := by decide +kernel
  have one := measured_read single there read
  rw [same, both] at one
  cases one

end Hiya.Daemon.Vaults
