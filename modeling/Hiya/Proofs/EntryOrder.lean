import Hiya.Pm.EntryIterator
import Mathlib.Data.Finset.Card
import Mathlib.Data.List.Nodup
import Hiya.Proofs.EntryIds

/-! The iterator lists every entry of a payload once, whatever its groups look like. Its
depth bound is never met: a group is entered once, so there are never more of them open than
there are. -/

namespace Hiya.Pm
open Library

/-- A loop that keeps an invariant in every round does not fail. -/
theorem foldlM_keeps {ε σ α : Type} {keep : σ → Prop} {round : σ → α → Except ε σ} {items : List α}
    (each : ∀ state item, item ∈ items → keep state → ∃ reached, round state item = .ok reached ∧ keep reached)
    {state : σ} (held : keep state) :
    ∃ reached, items.foldlM round state = .ok reached ∧ keep reached := by
  induction items generalizing state with
  | nil => exact ⟨state, rfl, held⟩
  | cons item items ih =>
    obtain ⟨middle, one, kept⟩ := each state item List.mem_cons_self held
    obtain ⟨reached, others, done⟩ := ih (fun state item inside => each state item (List.mem_cons_of_mem _ inside)) kept
    refine ⟨reached, ?_, done⟩
    rw [List.foldlM_cons, one]
    exact others

theorem foldl_keeps {σ α : Type} {keep : σ → Prop} {round : σ → α → σ} {items : List α}
    (each : ∀ state item, item ∈ items → keep state → keep (round state item)) {state : σ} (held : keep state) :
    keep (items.foldl round state) := by
  induction items generalizing state with
  | nil => exact held
  | cons item items ih =>
    exact ih (fun state item inside => each state item (List.mem_cons_of_mem _ inside))
      (each state item List.mem_cons_self held)

theorem lt_of_mem_zipIdx {α : Type} {items : List α} {item : α × Nat} (inside : item ∈ items.zipIdx) :
    item.2 < items.length := by
  obtain ⟨value, index⟩ := item
  have found := List.mk_mem_zipIdx_iff_getElem?.mp inside
  exact (List.getElem?_eq_some_iff.mp found).1

section
variable {payload : Payload}

/-- The order holds the entries that were added, each of them once. -/
structure Listing.Sound (payload : Payload) (listing : Listing) : Prop where
  nodup : listing.entryOrder.Nodup
  added : ∀ entry, listing.entryAdded entry = true ↔ entry ∈ listing.entryOrder
  inside : ∀ entry ∈ listing.entryOrder, entry < payload.entries.length

namespace Listing
variable {listing : Listing}

theorem sound_empty : Sound payload empty := by
  refine ⟨List.nodup_nil, fun entry => ?_, nofun⟩
  exact iff_of_false nofun List.not_mem_nil

theorem Sound.visit (sound : Sound payload listing) (group : Nat) : Sound payload (listing.visit group) :=
    ⟨sound.nodup, sound.added, sound.inside⟩

theorem Sound.append (sound : Sound payload listing) {entry : Nat} (fresh : ¬ listing.entryAdded entry = true)
    (inside : entry < payload.entries.length) :
    Sound payload (listing.append entry) := by
  have absent : entry ∉ listing.entryOrder := fun member => fresh ((sound.added entry).mpr member)
  refine ⟨?_, fun other => ?_, fun other member => ?_⟩
  · exact List.nodup_append.mpr ⟨sound.nodup, List.nodup_singleton _, fun first member second single => by
      rw [List.mem_singleton.mp single]
      exact fun same => absent (same ▸ member)⟩
  · change Function.update listing.entryAdded entry true other = true ↔ other ∈ listing.entryOrder ++ [entry]
    rw [List.mem_append, List.mem_singleton, ← sound.added]
    by_cases same : other = entry
    · rw [same, Function.update_self]
      exact iff_of_true rfl (.inr rfl)
    · rw [Function.update_of_ne same]
      exact ⟨.inl, fun either => either.resolve_right same⟩
  · obtain old | new := List.mem_append.mp member
    · exact sound.inside other old
    · rw [List.mem_singleton.mp new]
      exact inside

end Listing

/-- One round adds an entry that was not there, or nothing. -/
theorem sound_appendEntry {groupId : Option CStr} {listing : Listing} {entry : Entry × Nat}
    (inside : entry.2 < payload.entries.length)
    (sound : listing.Sound payload) : (appendEntry groupId listing entry).Sound payload := by
  unfold appendEntry
  split
  · exact sound
  next fresh =>
    cases groupId with
    | none =>
      dsimp only
      split
      · exact sound
      · exact sound.append fresh inside
    | some groupId =>
      dsimp only
      split
      · exact sound
      · exact sound.append fresh inside

theorem groupVisited_appendEntry (groupId : Option CStr) (listing : Listing) (entry : Entry × Nat) :
    (appendEntry groupId listing entry).groupVisited = listing.groupVisited := by
  unfold appendEntry
  split
  · rfl
  cases groupId with
  | none =>
    dsimp only
    split
    · rfl
    · rfl
  | some groupId =>
    dsimp only
    split
    · rfl
    · rfl

def Listing.entered (payload : Payload) (listing : Listing) : Nat :=
  ((Finset.range payload.groups.length).filter fun group => listing.groupVisited group = true).card

theorem entered_le (listing : Listing) : listing.entered payload ≤ payload.groups.length := by
  have fewer := Finset.card_filter_le (Finset.range payload.groups.length) fun group => listing.groupVisited group = true
  rwa [Finset.card_range] at fewer

theorem entered_visit {listing : Listing} {group : Nat} (inside : group < payload.groups.length)
    (fresh : ¬ listing.groupVisited group = true) :
    (listing.visit group).entered payload = listing.entered payload + 1 := by
  have more : (Finset.range payload.groups.length).filter (fun other => (listing.visit group).groupVisited other = true) =
      insert group ((Finset.range payload.groups.length).filter fun other => listing.groupVisited other = true) := by
    ext other
    rw [Finset.mem_insert, Finset.mem_filter, Finset.mem_filter, Finset.mem_range]
    change other < _ ∧ Function.update listing.groupVisited group true other = true ↔ _
    by_cases same : other = group
    · rw [same, Function.update_self]
      exact iff_of_true ⟨inside, rfl⟩ (.inl rfl)
    · rw [Function.update_of_ne same]
      exact ⟨.inr, fun either => either.resolve_left same⟩
  unfold Listing.entered
  rw [more, Finset.card_insert_of_notMem]
  exact fun member => fresh (Finset.mem_filter.mp member).2

structure Listing.Along (payload : Payload) (least : Nat) (listing : Listing) : Prop where
  sound : listing.Sound payload
  entered : least ≤ listing.entered payload

theorem along_appendEntries {least : Nat} {listing : Listing} (along : listing.Along payload least) (groupId : Option CStr) :
    (iteratorAppendEntriesForGroup payload groupId listing).Along payload least := by
  apply foldl_keeps (fun listing entry inside along => ?_) along
  refine ⟨sound_appendEntry (lt_of_mem_zipIdx inside) along.sound, ?_⟩
  unfold Listing.entered
  rw [groupVisited_appendEntry]
  exact along.entered

/-- The walk does not run out of depth while fewer groups are open than have been entered. -/
theorem iteratorWalkGroup_ok (remaining : Nat) : ∀ {least index : Nat} {listing : Listing}, listing.Along payload least →
    index < payload.groups.length → payload.groups.length + 1 ≤ remaining + least →
    ∃ reached, iteratorWalkGroup payload remaining index listing = .ok reached ∧ reached.Along payload least := by
  induction remaining with
  | zero =>
    intro least index listing along inside depth
    have few : listing.entered payload ≤ payload.groups.length := entered_le listing
    have many := along.entered
    omega
  | succ remaining ih =>
    intro least index listing along inside depth
    unfold iteratorWalkGroup
    rw [List.getElem?_eq_getElem inside]
    dsimp only
    split
    · exact ⟨listing, rfl, along⟩
    next fresh =>
      have visited : (listing.visit index).Along payload (least + 1) := by
        refine ⟨along.sound.visit index, ?_⟩
        rw [entered_visit inside fresh]
        exact Nat.succ_le_succ along.entered
      have started : (if payload.groups[index].id ≠ .empty then
          iteratorAppendEntriesForGroup payload (some payload.groups[index].id) (listing.visit index)
            else listing.visit index).Along payload (least + 1) := by
        split
        · exact along_appendEntries visited _
        · exact visited
      have rounds : ∀ (listing : Listing) (child : Group × Nat), child ∈ payload.groups.zipIdx →
        listing.Along payload (least + 1) →
          ∃ reached, (if payload.groups[index].id = .empty ∨ child.1.parentId ≠ payload.groups[index].id then .ok listing
            else iteratorWalkGroup payload remaining child.2 listing) = .ok reached ∧ reached.Along payload (least + 1) := by
        intro listing child member along
        split
        · exact ⟨listing, rfl, along⟩
        · exact ih along (lt_of_mem_zipIdx member) (by omega)
      obtain ⟨reached, done, held⟩ := foldlM_keeps rounds started
      exact ⟨reached, done, held.sound, Nat.le_of_succ_le held.entered⟩

theorem walkGroup_ok {listing : Listing} (along : listing.Along payload 0) {index : Nat}
    (inside : index < payload.groups.length) :
    ∃ reached, iteratorWalkGroup payload (payload.groups.length + 1) index listing = .ok reached ∧ reached.Along payload 0 :=
  iteratorWalkGroup_ok _ along inside (Nat.le_refl _)

theorem walkRoots_ok {listing : Listing} (along : listing.Along payload 0) :
    ∃ reached, walkRoots payload listing = .ok reached ∧ reached.Along payload 0 := by
  refine foldlM_keeps (fun listing group member along => ?_) along
  split
  · exact walkGroup_ok along (lt_of_mem_zipIdx member)
  · exact ⟨listing, rfl, along⟩

theorem walkOthers_ok {listing : Listing} (along : listing.Along payload 0) :
    ∃ reached, walkOthers payload listing = .ok reached ∧ reached.Along payload 0 := by
  refine foldlM_keeps (fun listing group member along => ?_) along
  split
  · exact ⟨listing, rfl, along⟩
  · exact walkGroup_ok along (lt_of_mem_zipIdx member)

def Listing.complete (listing : Listing) (entry : Entry × Nat) : Listing :=
    if listing.entryAdded entry.2 then listing else listing.append entry.2

theorem entryAdded_complete (listing : Listing) (entry : Entry × Nat) (other : Nat) :
    (listing.complete entry).entryAdded other = true ↔ other = entry.2 ∨ listing.entryAdded other = true := by
  unfold Listing.complete
  split
  next added =>
    refine ⟨.inr, fun either => either.elim (fun same => ?_) id⟩
    rw [same]
    exact added
  · change Function.update listing.entryAdded entry.2 true other = true ↔ _
    by_cases same : other = entry.2
    · rw [same, Function.update_self]
      exact iff_of_true rfl (.inl rfl)
    · rw [Function.update_of_ne same]
      exact ⟨.inr, fun either => either.resolve_left same⟩

theorem sound_complete {listing : Listing} {entry : Entry × Nat} (inside : entry.2 < payload.entries.length)
    (sound : listing.Sound payload) :
    (listing.complete entry).Sound payload := by
  unfold Listing.complete
  split
  · exact sound
  next fresh => exact sound.append fresh inside

theorem entryAdded_foldl_complete (entries : List (Entry × Nat)) (listing : Listing) (other : Nat) :
    (entries.foldl Listing.complete listing).entryAdded other = true ↔ other ∈ entries.map Prod.snd ∨
    listing.entryAdded other = true := by
  induction entries generalizing listing with
  | nil => exact ⟨.inr, fun either => either.resolve_left List.not_mem_nil⟩
  | cons entry entries ih =>
    rw [List.foldl_cons, ih, entryAdded_complete, List.map_cons, List.mem_cons, or_left_comm, or_assoc]

theorem appendOthers_spec {listing : Listing} (sound : listing.Sound payload) : (appendOthers payload listing).Sound payload ∧
    ∀ entry < payload.entries.length, entry ∈ (appendOthers payload listing).entryOrder := by
  have after : (appendOthers payload listing).Sound payload :=
    foldl_keeps (fun listing entry member sound => sound_complete (lt_of_mem_zipIdx member) sound) sound
  refine ⟨after, fun entry inside => (after.added entry).mp ?_⟩
  refine (entryAdded_foldl_complete _ _ _).mpr (.inl ?_)
  rw [List.zipIdx_map_snd]
  exact List.mem_range'_1.mpr ⟨Nat.zero_le _, by omega⟩

/-- Taken by their places, the items are the same. -/
theorem filterMap_range {α : Type} (items : List α) : (List.range items.length).filterMap (items[·]?) = items := by
  have mapped : (List.range items.length).map (items[·]?) = items.map some := by
    apply List.ext_getElem
    · rw [List.length_map, List.length_range, List.length_map]
    · intro index one two
      rw [List.getElem_map, List.getElem_range, List.getElem_map]
      exact List.getElem?_eq_getElem _
  have joined : (List.range items.length).filterMap (items[·]?) =
    ((List.range items.length).map (items[·]?)).filterMap id := by
    rw [List.filterMap_map]
    rfl
  rw [joined, mapped, List.filterMap_map]
  exact List.filterMap_some

theorem listEntries_perm (payload : Payload) : ∃ order, listEntries payload = .ok order ∧
    order.Perm (List.range payload.entries.length) := by
  unfold listEntries
  split
  next none =>
    rw [none]
    exact ⟨[], rfl, .refl _⟩
  · have start : (iteratorAppendEntriesForGroup payload none .empty).Along payload 0 :=
      along_appendEntries ⟨Listing.sound_empty, Nat.zero_le _⟩ none
    obtain ⟨rooted, roots, along⟩ := walkRoots_ok start
    obtain ⟨walked, others, along⟩ := walkOthers_ok along
    obtain ⟨sound, complete⟩ := appendOthers_spec along.sound
    refine ⟨(appendOthers payload walked).entryOrder, ?_, ?_⟩
    · dsimp only
      rw [roots]
      dsimp only [Except.bind, bind]
      rw [others]
      rfl
    · apply (List.perm_ext_iff_of_nodup sound.nodup List.nodup_range).mpr
      intro entry
      rw [List.mem_range]
      exact ⟨sound.inside entry, complete entry⟩

end

/-- The entries that an iterator still gives, in order. -/
inductive Yields : EntryIterator → List Entry → Prop
  | done {iterator : EntryIterator} (ended : entryIteratorNext iterator = (none, iterator)) : Yields iterator []
  | next {iterator later : EntryIterator} {entry : Entry} {entries : List Entry}
    (given : entryIteratorNext iterator = (some entry, later))
    (rest : Yields later entries) : Yields iterator (entry :: entries)

theorem Yields.unique {iterator : EntryIterator} {first second : List Entry} (one : Yields iterator first)
    (two : Yields iterator second) :
    first = second := by
  induction one generalizing second with
  | done ended =>
    cases two with
    | done _ => rfl
    | next given rest => cases ended.symm.trans given
  | next given rest ih =>
    cases two with
    | done ended => cases given.symm.trans ended
    | next given' rest' =>
      cases given.symm.trans given'
      rw [ih rest']

/-- An iterator gives the entries at the places of its order from the cursor on. -/
theorem yields_order {payload : Payload} {order : List Nat} (inside : ∀ index ∈ order, index < payload.entries.length)
    (left : Nat) :
    ∀ cursor, order.length ≤ cursor + left →
      Yields { payload, entryOrder := order, cursor } ((order.drop cursor).filterMap (payload.entries[·]?)) := by
  induction left with
  | zero =>
    intro cursor past
    have past : order.length ≤ cursor := past
    rw [List.drop_eq_nil_of_le past]
    apply Yields.done
    unfold entryIteratorNext
    rw [List.getElem?_eq_none past]
  | succ left ih =>
    intro cursor enough
    by_cases more : cursor < order.length
    · have index := inside order[cursor] (List.getElem_mem more)
      rw [List.drop_eq_getElem_cons more, List.filterMap_cons, List.getElem?_eq_getElem index]
      apply Yields.next _ (ih (cursor + 1) (by omega))
      unfold entryIteratorNext
      rw [List.getElem?_eq_getElem more]
      dsimp only
      rw [List.getElem?_eq_getElem index]
    · have past : order.length ≤ cursor := Nat.not_lt.mp more
      rw [List.drop_eq_nil_of_le past]
      apply Yields.done
      unfold entryIteratorNext
      rw [List.getElem?_eq_none past]

/-- The iterator is there for every payload that can be read, and it gives each entry once. -/
theorem iterator_visits_entries (vault : VaultHandle) (payload : Payload)
    (opened : (vaultGetPayloadModel vault).1 = .ok payload) :
    ∃ iterator, vaultStoreBegin vault = some iterator ∧ (∃ entries, Yields iterator entries) ∧
      ∀ entries, Yields iterator entries → entries.Perm payload.entries := by
  obtain ⟨order, listed, visited⟩ := listEntries_perm payload
  have inside : ∀ index ∈ order, index < payload.entries.length :=
    fun index member => List.mem_range.mp (visited.mem_iff.mp member)
  have begun : vaultStoreBegin vault = some { payload, entryOrder := order, cursor := 0 } := by
    unfold vaultStoreBegin
    generalize vaultGetPayloadModel vault = reached at opened
    obtain ⟨outcome, handle⟩ := reached
    cases opened
    dsimp only
    rw [listed]
  have run := yields_order inside order.length 0 (Nat.le_add_left _ _)
  refine ⟨_, begun, ⟨_, run⟩, fun entries yields => ?_⟩
  rw [yields.unique run, List.drop_zero]
  have taken := visited.filterMap (payload.entries[·]?)
  rwa [filterMap_range] at taken

theorem iterator_visits_entries_pairVault :
    ∃ iterator, vaultStoreBegin pairVault = some iterator ∧ (∃ entries, Yields iterator entries) ∧
      ∀ entries, Yields iterator entries → entries.Perm (modelOf pairVault).entries :=
  iterator_visits_entries pairVault (modelOf pairVault) (by decide +kernel)

end Hiya.Pm
