import Hiya.Daemon.RateLimiter

/-! What the operations of the rate limiter do to the entry of one uid, and that they
leave every other one alone as long as the table has room. -/

namespace Hiya.Daemon

namespace RateLimiters

def tracks (table : RateLimiters) (uid : Uid) : Prop := ∃ entry ∈ table.entries, entry.uid = uid

def HasRoom (table : RateLimiters) (uid : Uid) : Prop := table.tracks uid ∨ table.entries.length < maxRateLimiters

theorem tracks_of_find {table : RateLimiters} {uid : Uid} {entry : RateLimiter}
    (found : table.entries.find? (fun entry => entry.uid = uid) = some entry) : table.tracks uid :=
  ⟨entry, List.mem_of_find?_eq_some found, by simpa using List.find?_some found⟩

end RateLimiters

section
variable {uid other : Uid} {table : RateLimiters}

theorem get_uid (table : RateLimiters) (uid : Uid) : (table.get uid).uid = uid := by
  unfold RateLimiters.get
  cases found : table.entries.find? fun entry => entry.uid = uid with
  | none => rfl
  | some entry => simpa using List.find?_some found

theorem find_modify_self (entries : List RateLimiter) (new : RateLimiter) (tracked : ∃ entry ∈ entries, entry.uid = new.uid) :
    (entries.modify (entries.findIdx fun entry => entry.uid = new.uid) fun _ => new).find? (fun entry => entry.uid =
    new.uid) =
      some new := by
  induction entries with
  | nil =>
    obtain ⟨entry, inside, -⟩ := tracked
    cases inside
  | cons first rest ih =>
    by_cases here : first.uid = new.uid
    · simp [List.findIdx_cons, here]
    · obtain ⟨entry, inside, same⟩ := tracked
      have later : entry ∈ rest := by
        rcases List.mem_cons.mp inside with rfl | later
        · exact absurd same here
        · exact later
      simpa [List.findIdx_cons, here] using ih ⟨entry, later, same⟩

theorem find_modify_other (entries : List RateLimiter) (new : RateLimiter) (different : other ≠ new.uid) :
    (entries.modify (entries.findIdx fun entry => entry.uid = new.uid) fun _ => new).find? (fun entry => entry.uid = other) =
      entries.find? fun entry => entry.uid = other := by
  induction entries with
  | nil => rfl
  | cons first rest ih =>
    by_cases here : first.uid = new.uid
    · have elsewhere : first.uid ≠ other := fun same => different (same.symm.trans here)
      simp [List.findIdx_cons, here, different.symm]
    · by_cases found : first.uid = other
      · simp [List.findIdx_cons, found, different]
      · simpa [List.findIdx_cons, here, found] using ih

theorem get_put_self (entry : RateLimiter) (tracked : table.tracks entry.uid) : (table.put entry).get entry.uid = entry := by
  unfold RateLimiters.get RateLimiters.put
  rw [find_modify_self table.entries entry tracked]
  rfl

theorem get_put_other (entry : RateLimiter) (different : other ≠ entry.uid) : (table.put entry).get other =
    table.get other := by
  unfold RateLimiters.get RateLimiters.put
  rw [find_modify_other table.entries entry different]

theorem tracks_put (entry : RateLimiter) (tracked : table.tracks entry.uid) : (table.put entry).tracks entry.uid :=
  RateLimiters.tracks_of_find (find_modify_self table.entries entry tracked)

/-- Looking a uid up changes no entry that is there, unless one must make room. -/
theorem findRateLimiter_cases (room : table.HasRoom uid) :
    findRateLimiter uid table = table ∧ table.tracks uid ∨
      ¬ table.tracks uid ∧ (findRateLimiter uid table).entries = table.entries ++ [.fresh uid] := by
  unfold findRateLimiter
  split
  next present =>
    obtain ⟨entry, inside, same⟩ := List.any_eq_true.mp present
    exact .inl ⟨rfl, entry, inside, by simpa using same⟩
  next absent =>
    have untracked : ¬ table.tracks uid := by
      rintro ⟨entry, inside, same⟩
      exact absent (List.any_eq_true.mpr ⟨entry, inside, by simpa using same⟩)
    rcases room with tracked | short
    · exact absurd tracked untracked
    · rw [dif_pos short]
      exact .inr ⟨untracked, rfl⟩

theorem find_none_of_untracked (untracked : ¬ table.tracks uid) : table.entries.find? (fun entry => entry.uid = uid) =
    none := by
  apply List.find?_eq_none.mpr
  intro entry inside same
  exact untracked ⟨entry, inside, by simpa using same⟩

theorem tracks_find (room : table.HasRoom uid) : (findRateLimiter uid table).tracks uid := by
  rcases findRateLimiter_cases room with ⟨same, tracked⟩ | ⟨-, grown⟩
  · rwa [same]
  · refine ⟨.fresh uid, ?_, rfl⟩
    rw [grown]
    exact List.mem_append_right _ (List.mem_singleton_self _)

theorem get_find (room : table.HasRoom uid) (other : Uid) : (findRateLimiter uid table).get other = table.get other := by
  rcases findRateLimiter_cases room with ⟨same, -⟩ | ⟨untracked, grown⟩
  · rw [same]
  · unfold RateLimiters.get
    rw [grown, List.find?_append]
    by_cases here : other = uid
    · subst here
      rw [find_none_of_untracked untracked]
      simp [RateLimiter.fresh]
    · cases found : table.entries.find? fun entry => entry.uid = other with
      | none => simp [RateLimiter.fresh, Ne.symm here]
      | some entry => simp

theorem get_changed (change : RateLimiter → RateLimiter) (same : ∀ entry, (change entry).uid = entry.uid)
    (room : table.HasRoom uid) (other : Uid) :
    ((findRateLimiter uid table).put (change ((findRateLimiter uid table).get uid))).get other =
      if other = uid then change (table.get uid) else table.get other := by
  rw [get_find room uid]
  have named : (change (table.get uid)).uid = uid := (same _).trans (get_uid table uid)
  split
  next here =>
    subst here
    have tracked : (findRateLimiter other table).tracks (change (table.get other)).uid := by
      rw [named]
      exact tracks_find room
    have stored := get_put_self (change (table.get other)) tracked
    rwa [named] at stored
  next elsewhere =>
    rw [get_put_other _ (by rwa [named]), get_find room other]

theorem tracks_changed (change : RateLimiter → RateLimiter) (same : ∀ entry, (change entry).uid = entry.uid)
    (room : table.HasRoom uid) :
    ((findRateLimiter uid table).put (change ((findRateLimiter uid table).get uid))).tracks uid := by
  have named : (change ((findRateLimiter uid table).get uid)).uid = uid := (same _).trans (get_uid _ uid)
  have stored := tracks_put (change ((findRateLimiter uid table).get uid))
    (by rw [named]; exact tracks_find room : (findRateLimiter uid table).tracks _)
  rwa [named] at stored

theorem checked_uid (now : Int) (entry : RateLimiter) : (entry.checked now).uid = entry.uid := by
  unfold RateLimiter.checked
  split
  · rfl
  · split
    · rfl
    · rfl

theorem recorded_uid (config : Config) (now : Int) (entry : RateLimiter) : (entry.recorded config now).uid = entry.uid := by
  unfold RateLimiter.recorded
  dsimp only
  split
  · rfl
  · rfl

theorem check_get (now : Int) (room : table.HasRoom uid) (other : Uid) :
    (checkVerifyRateLimit now uid table).2.get other =
      if other = uid then (table.get uid).checked now else table.get other :=
  get_changed _ (checked_uid now) room other

theorem check_tracks (now : Int) (room : table.HasRoom uid) : (checkVerifyRateLimit now uid table).2.tracks uid :=
  tracks_changed _ (checked_uid now) room

theorem record_get (config : Config) (now : Int) (room : table.HasRoom uid) (other : Uid) :
    (recordVerifyFailure config now uid table).get other =
      if other = uid then (table.get uid).recorded config now else table.get other :=
  get_changed _ (recorded_uid config now) room other

theorem reset_get_other (room : table.HasRoom uid) (different : other ≠ uid) :
    (resetVerifyRateLimit uid table).get other = table.get other := by
  have changed : (resetVerifyRateLimit uid table).get other = if other = uid then (table.get uid).reset
    else table.get other :=
    get_changed RateLimiter.reset (fun _ => rfl) room other
  rwa [if_neg different] at changed

end

end Hiya.Daemon
